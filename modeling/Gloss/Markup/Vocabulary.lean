import Gloss.Decimal.Positional
import Gloss.Dictionary.Entry
import Gloss.Markup.Redirect

/-! The words of the markup: class names and visible labels. Style sheets rely on the defaults. -/
namespace Gloss

structure Vocabulary where
  /-- Outer span, around the visible text and the hidden definition. -/
  containerClass : Text := "aiv-definition".toList
  /-- The definition block inside the container. -/
  textClass : Text := "aiv-definition-text".toList
  bodyClass : Text := "aiv-definition-body".toList
  explanationClass : Text := "aiv-definition-explanation".toList
  examplesClass : Text := "aiv-definition-examples".toList
  /-- One span for each item of a list of examples. -/
  exampleItemClass : Text := "aiv-definition-example".toList
  variantNoteClass : Text := "aiv-definition-variant".toList
  /-- The cross-reference of a short variant. -/
  referenceClass : Text := "aiv-definition-ref".toList
  explanationLabel : Text := "Toelichting".toList
  examplesLabel : Text := "Voorbeelden".toList
  alternativeSpellingNote : Text := "Alternatieve schrijfwijze van".toList
  alternativeTermNote : Text := "Alternatieve term voor".toList
  referenceTooltip : Text := "Verwijst naar:".toList
  redirect : RedirectPolicy := {}

namespace Vocabulary

inductive Fault where
  | emptyClass (field : String)
  | severalNames (field : String) (name : Text)
  | sameStructuralClasses
  | ratioOutOfRange (ratio : Float)

def Fault.message : Fault → String
  | .emptyClass field => "invalid markup configuration: " ++ field ++ " must not be empty"
  | .severalNames field name =>
    "invalid markup configuration: " ++ field ++ " `" ++ String.ofList name
      ++ "` must be a single class name"
  | .sameStructuralClasses =>
    "invalid markup configuration: container_class, text_class and reference_class must differ"
  | .ratioOutOfRange ratio =>
    "invalid markup configuration: redirect.min_length_ratio must be within 0.0..=1.0, got "
      ++ Decimal.positional ratio

/-- The class names with the names of their fields, in the order in which they are checked. -/
def classes (vocabulary : Vocabulary) : List (String × Text) :=
  [("container_class", vocabulary.containerClass),
   ("text_class", vocabulary.textClass),
   ("body_class", vocabulary.bodyClass),
   ("explanation_class", vocabulary.explanationClass),
   ("examples_class", vocabulary.examplesClass),
   ("example_item_class", vocabulary.exampleItemClass),
   ("variant_note_class", vocabulary.variantNoteClass),
   ("reference_class", vocabulary.referenceClass)]

def delimiters : List Char :=
  ['"', '\'', '<', '>', '&']

def isClassChar (c : Char) : Bool :=
  !Text.isWhite c && !delimiters.contains c

def classFault? (field : String) (name : Text) : Option Fault :=
  if name.isEmpty then some (.emptyClass field)
  else if name.all isClassChar then none
  else some (.severalNames field name)

/-- The first fault of a vocabulary. Spans are told apart by class alone when markup is removed, so
the three structural classes differ. -/
def fault? (vocabulary : Vocabulary) : Option Fault :=
  match vocabulary.classes.findSome? fun (field, name) => classFault? field name with
  | some fault => some fault
  | none =>
    if vocabulary.containerClass == vocabulary.textClass
        || vocabulary.containerClass == vocabulary.referenceClass
        || vocabulary.textClass == vocabulary.referenceClass then
      some .sameStructuralClasses
    else if vocabulary.redirect.isValid then none
    else some (.ratioOutOfRange vocabulary.redirect.minLengthRatio)

/-- The note for a kind of variant. An inflected form has none. -/
def note? (vocabulary : Vocabulary) : VariantKind → Option Text
  | .alternativeSpelling => some vocabulary.alternativeSpellingNote
  | .alternativeTerm => some vocabulary.alternativeTermNote
  | .inflectedForm => none

end Vocabulary
end Gloss
