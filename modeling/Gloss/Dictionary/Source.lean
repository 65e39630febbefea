import Gloss.Text.Blank

/-! A definitions document as its author wrote it. Every field is optional here: what is missing is
found when the dictionary is built, where the position of the definition is known. -/
namespace Gloss

/-- Usage examples: prose, or a list of short items. -/
inductive Examples where
  | prose (text : Text)
  | items (texts : List Text)
  deriving DecidableEq, Repr

def Examples.isBlank : Examples → Bool
  | .prose text => text.isBlank
  | .items texts => texts.all Text.isBlank

structure Definition where
  /-- Identifier that variants refer to; derived from the term when absent. -/
  id : Option Text := none
  term : Option Text := none
  definition : Option Text := none
  explanation : Option Text := none
  examples : Option Examples := none
  category : Option Text := none
  inflections : List Text := []
  deriving DecidableEq, Repr

/-- A declared variant of the term whose identifier it refers to. -/
structure DeclaredVariant where
  text : Option Text := none
  refersTo : Option Text := none
  deriving DecidableEq, Repr

structure Source where
  definitions : List Definition := []
  alternativeSpellings : List DeclaredVariant := []
  alternativeTerms : List DeclaredVariant := []
  deriving DecidableEq, Repr

end Gloss
