import Gloss.Dictionary.Entry
import Gloss.Dictionary.Error
import Gloss.Dictionary.Identifier

/-! Building a dictionary. Canonical terms come first and must all be sound; then every variant is
submitted in a fixed order, and of two entries with the same case fold the earlier keeps it. -/
namespace Gloss

/-- Why a submitted variant was not registered. -/
inductive Drop where
  | missingText (kind : VariantKind) (refersTo : Option Text)
  | unresolved (kind : VariantKind) (text : Text) (refersTo : Option Text)
  | blank (kind : VariantKind) (canonical : Text)
  | collision (kind : VariantKind) (text canonical existing existingCanonical : Text)
  /-- A generated form that its own term has already. -/
  | alreadyRegistered (text canonical : Text)
  deriving DecidableEq, Repr

/-- Canonical terms and variants in registration order. -/
structure Dictionary where
  terms : List Term := []
  variants : List Variant := []
  dropped : Nat := 0
  drops : List Drop := []

namespace Dictionary

def required (index : Nat) (field : RequiredField) (value : Option Text) :
    Except BuildError Text :=
  match value.bind Text.nonBlank? with
  | some text => .ok text
  | none => .error (.missingField index field)

/-- The identifier of a definition: declared, else derived from the term, else the key itself. -/
def identifierOf (declared : Option Text) (name key : Text) : Text :=
  match declared.bind Text.nonBlank? with
  | some id => id
  | none => if Identifier.ofTerm name = [] then key else Identifier.ofTerm name

def accept (terms : List Term) (index : Nat) (raw : Definition) : Except BuildError Term := do
  let name ← required index .term raw.term
  let definition ← required index .definition raw.definition
  let key := Text.foldCase name
  if let some existing := terms.find? (·.key == key) then
    throw (.duplicateTerm index name existing.name)
  let id := identifierOf raw.id name key
  if let some existing := terms.find? (·.id == id) then
    throw (.duplicateId index id name existing.name)
  return {
    id, name, definition, key
    explanation := raw.explanation.bind Text.nonBlank?
    examples := raw.examples.filter (!·.isBlank)
    category := raw.category.bind Text.nonBlank? }

def acceptAll (terms : List Term) : List Definition → Except BuildError (List Term)
  | [] => .ok terms
  | raw :: rest => do
    let term ← accept terms terms.length raw
    acceptAll (terms ++ [term]) rest

/-- A variant on its way into the dictionary. -/
inductive Submission where
  | declared (kind : VariantKind) (variant : DeclaredVariant)
  | inflected (canonical text : Text) (generated : Bool)
  deriving DecidableEq, Repr

/-- Every submission of a source: spellings, alternative terms, declared inflections, generated
forms. -/
def submissions (source : Source) (rules : InflectionRules) (terms : List Term) :
    List Submission :=
  source.alternativeSpellings.map (.declared .alternativeSpelling)
    ++ source.alternativeTerms.map (.declared .alternativeTerm)
    ++ (source.definitions.zip terms).flatMap (fun pair =>
        pair.1.inflections.map (.inflected pair.2.key · false))
    ++ terms.flatMap (fun term => (rules.forms term.name).map (.inflected term.key · true))

/-- A submission whose term is known. -/
structure Linked where
  kind : VariantKind
  text : Text
  canonical : Text
  generated : Bool

def Submission.link (terms : List Term) : Submission → Except Drop Linked
  | .inflected canonical text generated => .ok ⟨.inflectedForm, text, canonical, generated⟩
  | .declared kind variant =>
    match variant.text with
    | none => .error (.missingText kind variant.refersTo)
    | some text =>
      match variant.refersTo.bind (fun id => terms.find? (·.id == id.trim)) with
      | none => .error (.unresolved kind text variant.refersTo)
      | some term => .ok ⟨kind, text, term.key, false⟩

abbrev Registry := List (Text × Entry)

/-- The variant to register for a linked submission, unless it is blank or its case fold taken. -/
def Linked.variant (registry : Registry) (linked : Linked) : Except Drop Variant :=
  match linked.text.trim with
  | [] => .error (.blank linked.kind linked.canonical)
  | text =>
    match registry.lookup (Text.foldCase text) with
    | none => .ok ⟨text, linked.canonical, linked.kind⟩
    | some existing =>
      if linked.generated && existing.canonicalKey == linked.canonical then
        .error (.alreadyRegistered text linked.canonical)
      else
        .error (.collision linked.kind text linked.canonical existing.text existing.canonicalKey)

/-- Register submissions one after another. One that is dropped is counted and logged. -/
def registerAll (terms : List Term) (registry : Registry) :
    List Submission → List Variant × Nat × List Drop
  | [] => ([], 0, [])
  | submission :: rest =>
    match (submission.link terms).bind (Linked.variant registry) with
    | .error drop =>
      let (variants, dropped, drops) := registerAll terms registry rest
      (variants, dropped + 1, drop :: drops)
    | .ok variant =>
      let (variants, dropped, drops) :=
        registerAll terms ((Text.foldCase variant.text, .variant variant) :: registry) rest
      (variant :: variants, dropped, drops)

def build (source : Source) (rules : InflectionRules) : Except BuildError Dictionary := do
  if let some fault := rules.fault? then
    throw (.invalidRules fault)
  let terms ← acceptAll [] source.definitions
  let registry := terms.map fun term => (term.key, Entry.term term)
  let (variants, dropped, drops) := registerAll terms registry (submissions source rules terms)
  return { terms, variants, dropped, drops }

end Dictionary
end Gloss
