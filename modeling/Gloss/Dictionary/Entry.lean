import Gloss.Dictionary.Source

/-! What a dictionary holds: canonical terms and the variants that stand for them. -/
namespace Gloss

structure Term where
  id : Text
  name : Text
  definition : Text
  explanation : Option Text := none
  examples : Option Examples := none
  category : Option Text := none
  /-- Case fold of the display form. -/
  key : Text
  deriving DecidableEq, Repr

/-- How a variant relates to its term. -/
inductive VariantKind where
  | alternativeSpelling
  | alternativeTerm
  | inflectedForm
  deriving DecidableEq, Repr

/-- A text that stands for a canonical term without being its display form. -/
structure Variant where
  text : Text
  /-- Key of the canonical term. -/
  canonical : Text
  kind : VariantKind
  deriving DecidableEq, Repr

inductive EntryKind where
  | canonical
  | variant (kind : VariantKind)
  deriving DecidableEq, Repr

namespace EntryKind

def variantKind? : EntryKind → Option VariantKind
  | .canonical => none
  | .variant kind => some kind

def isVariant (kind : EntryKind) : Bool :=
  kind.variantKind?.isSome

end EntryKind

inductive Entry where
  | term (term : Term)
  | variant (variant : Variant)
  deriving DecidableEq, Repr

namespace Entry

def text : Entry → Text
  | .term t => t.name
  | .variant v => v.text

def kind : Entry → EntryKind
  | .term _ => .canonical
  | .variant v => .variant v.kind

def canonicalKey : Entry → Text
  | .term t => t.key
  | .variant v => v.canonical

end Entry
end Gloss
