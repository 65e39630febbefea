import Gloss.Proofs.Dictionary.Stream
import Mathlib.Data.List.Forall2

/-! Renaming the identifiers of a source. They link declared variants to terms and do nothing else:
a source with other identifiers, and with other categories, builds the same entries. -/
namespace Gloss
open Text

def Source.ids (source : Source) : List Text :=
  source.definitions.filterMap Definition.effectiveId?

/-- The same definition with a renamed identifier, given explicitly, and any category. -/
structure Definition.Renamed (rename : Text → Text) (raw other : Definition) : Prop where
  id : ∃ id, raw.effectiveId? = some id ∧ other.id = some (rename id)
  rest : other = { raw with id := other.id, category := other.category }

/-- The same variant, referring to the renamed identifier. One that referred to none of the
identifiers refers to none of the renamed ones. -/
structure DeclaredVariant.Renamed (rename : Text → Text) (ids : List Text)
    (variant other : DeclaredVariant) : Prop where
  text : other.text = variant.text
  named : ∀ id ∈ ids, variant.refersTo.map trim = some id →
    other.refersTo.map trim = some (rename id)
  unnamed : (∀ id ∈ ids, variant.refersTo.map trim ≠ some id) →
    ∀ id ∈ ids, other.refersTo.map trim ≠ some (rename id)

theorem DeclaredVariant.Renamed.refersTo_iff {rename : Text → Text} {ids : List Text}
    {variant other : DeclaredVariant} (h : variant.Renamed rename ids other)
    (hinj : ∀ a ∈ ids, ∀ b ∈ ids, rename a = rename b → a = b) {id : Text} (hid : id ∈ ids) :
    other.refersTo.map trim = some (rename id) ↔ variant.refersTo.map trim = some id := by
  constructor
  · intro hother
    by_cases hnamed : ∃ named ∈ ids, variant.refersTo.map trim = some named
    · obtain ⟨named, hmem, hnamed⟩ := hnamed
      have he := h.named named hmem hnamed
      rw [hother, Option.some.injEq] at he
      rw [hnamed, hinj id hid named hmem he]
    · have hunnamed : ∀ named ∈ ids, variant.refersTo.map trim ≠ some named :=
        fun named hmem he => hnamed ⟨named, hmem, he⟩
      exact absurd hother (h.unnamed hunnamed id hid)
  · exact h.named id hid

/-- The same source with renamed identifiers and any categories. Different identifiers stay
different, and renamed ones can be written down. -/
structure Source.Renamed (rename : Text → Text) (source other : Source) : Prop where
  injective : ∀ a ∈ source.ids, ∀ b ∈ source.ids, rename a = rename b → a = b
  written : ∀ id ∈ source.ids, rename id ≠ [] ∧ (rename id).trim = rename id
  definitions : List.Forall₂ (Definition.Renamed rename) source.definitions other.definitions
  alternativeSpellings : List.Forall₂ (DeclaredVariant.Renamed rename source.ids)
    source.alternativeSpellings other.alternativeSpellings
  alternativeTerms : List.Forall₂ (DeclaredVariant.Renamed rename source.ids)
    source.alternativeTerms other.alternativeTerms

/-- A term without what nothing shows: its identifier and its category. -/
def Term.anonymous (term : Term) : Term :=
  { term with id := [], category := none }

def Entry.anonymous : Entry → Entry
  | .term t => .term t.anonymous
  | .variant v => .variant v

def Drop.anonymous : Drop → Drop
  | .missingText kind _ => .missingText kind none
  | .unresolved kind text _ => .unresolved kind text none
  | drop => drop

namespace Entry

@[simp] theorem text_anonymous (entry : Entry) : entry.anonymous.text = entry.text := by
  cases entry <;> rfl

@[simp] theorem kind_anonymous (entry : Entry) : entry.anonymous.kind = entry.kind := by
  cases entry <;> rfl

@[simp] theorem canonicalKey_anonymous (entry : Entry) :
    entry.anonymous.canonicalKey = entry.canonicalKey := by
  cases entry <;> rfl

end Entry

namespace Dictionary

def anonymous (dictionary : Dictionary) : Dictionary :=
  { dictionary with
    terms := dictionary.terms.map Term.anonymous
    drops := dictionary.drops.map Drop.anonymous }

@[simp] theorem stats_anonymous (dictionary : Dictionary) :
    dictionary.anonymous.stats = dictionary.stats := by
  simp [stats, anonymous]

theorem entries_anonymous (dictionary : Dictionary) :
    dictionary.anonymous.entries = dictionary.entries.map Entry.anonymous := by
  rw [entries, entries, List.map_append, List.map_map, List.map_map, anonymous, List.map_map]
  rfl

theorem registrations_anonymous (dictionary : Dictionary) :
    dictionary.anonymous.entries.map Entry.registration =
      dictionary.entries.map Entry.registration := by
  rw [entries_anonymous, List.map_map]
  congr 1
  funext entry
  simp [Entry.registration]

theorem termByKey?_anonymous (dictionary : Dictionary) (key : Text) :
    dictionary.anonymous.termByKey? key = (dictionary.termByKey? key).map Term.anonymous := by
  rw [termByKey?, anonymous, List.find?_map]
  rfl

section Registering

def Registry.anonymous (registry : Registry) : Registry :=
  registry.map (Prod.map id Entry.anonymous)

theorem lookup_anonymous (registry : Registry) (key : Text) :
    registry.anonymous.lookup key = (registry.lookup key).map Entry.anonymous := by
  induction registry with
  | nil => rfl
  | cons first registry ih =>
    rw [Registry.anonymous, List.map_cons, Prod.map, List.lookup_cons, ← Registry.anonymous, ih,
      List.lookup_cons, id]
    cases key == first.1 <;> rfl

/-- Whether a variant is registered, and why not, does not depend on identifiers. -/
theorem Linked.variant_anonymous (linked : Linked) (registry : Registry) :
    linked.variant registry.anonymous = linked.variant registry := by
  unfold Linked.variant
  cases linked.text.trim with
  | nil => rfl
  | cons c rest =>
    simp only [lookup_anonymous]
    cases registry.lookup (foldCase (c :: rest)) with
    | none => rfl
    | some existing => simp

/-- The same link, or the same drop up to the reference. -/
inductive LinkedAlike : Except Drop Linked → Except Drop Linked → Prop where
  | ok (linked : Linked) : LinkedAlike (.ok linked) (.ok linked)
  | error {drop drop' : Drop} (h : drop.anonymous = drop'.anonymous) :
      LinkedAlike (.error drop) (.error drop')

theorem registerAll_congr {terms terms' : List Term} {registry registry' : Registry}
    {submitted submitted' : List Submission} (hregistry : registry.anonymous = registry'.anonymous)
    (h : List.Forall₂ (fun s s' => LinkedAlike (s.link terms) (s'.link terms')) submitted
      submitted') :
    (registerAll terms registry submitted).1 = (registerAll terms' registry' submitted').1 ∧
      (registerAll terms registry submitted).2.1 = (registerAll terms' registry' submitted').2.1 ∧
      (registerAll terms registry submitted).2.2.map Drop.anonymous =
        (registerAll terms' registry' submitted').2.2.map Drop.anonymous := by
  induction h generalizing registry registry' with
  | nil => exact ⟨rfl, rfl, rfl⟩
  | @cons s s' _ _ hlink _ ih =>
    have hvariant : Linked.variant registry = Linked.variant registry' := by
      funext linked
      rw [← Linked.variant_anonymous, hregistry, Linked.variant_anonymous]
    rw [registerAll, registerAll]
    revert hlink
    generalize s.link terms = link
    generalize s'.link terms' = link'
    rintro (linked | hdrop)
    · rw [Except.bind, Except.bind, hvariant]
      cases linked.variant registry' with
      | error drop =>
        obtain ⟨hvariants, hdropped, hdrops⟩ := ih hregistry
        exact ⟨hvariants, congrArg (· + 1) hdropped, congrArg (drop.anonymous :: ·) hdrops⟩
      | ok variant =>
        have hnext : Registry.anonymous ((foldCase variant.text, .variant variant) :: registry) =
            Registry.anonymous ((foldCase variant.text, .variant variant) :: registry') :=
          congrArg (List.cons _) hregistry
        obtain ⟨hvariants, hdropped, hdrops⟩ := ih hnext
        exact ⟨congrArg (variant :: ·) hvariants, hdropped, hdrops⟩
    · obtain ⟨hvariants, hdropped, hdrops⟩ := ih hregistry
      exact ⟨hvariants, congrArg (· + 1) hdropped, congrArg₂ List.cons hdrop hdrops⟩

end Registering

section Renamed
variable {rename : Text → Text} {source other : Source} {rules : InflectionRules}
  {terms terms' : List Term}

/-- The same term with a renamed identifier and any category. -/
structure RenamedTerm (rename : Text → Text) (term term' : Term) : Prop where
  id : term'.id = rename term.id
  rest : term'.anonymous = term.anonymous

theorem RenamedTerm.key {term term' : Term} (h : RenamedTerm rename term term') :
    term'.key = term.key :=
  show term'.anonymous.key = term.anonymous.key by rw [h.rest]

private theorem map_anonymous_of_renamed (h : List.Forall₂ (RenamedTerm rename) terms terms') :
    terms'.map Term.anonymous = terms.map Term.anonymous := by
  induction h with
  | nil => rfl
  | cons hterm _ ih => rw [List.map_cons, List.map_cons, hterm.rest, ih]

private theorem map_id_of_renamed (h : List.Forall₂ (RenamedTerm rename) terms terms') :
    terms'.map Term.id = (terms.map Term.id).map rename := by
  induction h with
  | nil => rfl
  | cons hterm _ ih => rw [List.map_cons, List.map_cons, List.map_cons, hterm.id, ih]

/-- What depends on the anonymous terms only is the same. -/
private theorem map_eq_of_anonymous {α : Type} (f : Term → α)
    (hf : ∀ term : Term, f term.anonymous = f term)
    (h : terms'.map Term.anonymous = terms.map Term.anonymous) : terms'.map f = terms.map f := by
  have hcomp (l : List Term) : l.map f = (l.map Term.anonymous).map f := by
    rw [List.map_map]
    exact List.map_congr_left fun term _ => (hf term).symm
  rw [hcomp, h, ← hcomp]

theorem filterMap_effectiveId? {definitions : List Definition}
    (h : List.Forall₂ Gives definitions terms) :
    definitions.filterMap Definition.effectiveId? = terms.map Term.id := by
  induction h with
  | nil => rfl
  | cons hgives _ ih =>
    rw [List.filterMap_cons_some hgives.effectiveId?_eq, List.map_cons, ih]

theorem exists_renamed_term {raw raw' : Definition} {term : Term} (h : raw.Renamed rename raw')
    (hgives : Gives raw term)
    (hwritten : rename term.id ≠ [] ∧ (rename term.id).trim = rename term.id) :
    ∃ term', Gives raw' term' ∧ RenamedTerm rename term term' := by
  obtain ⟨id, hid, hid'⟩ := h.id
  rw [hgives.effectiveId?_eq, Option.some.injEq] at hid
  subst hid
  obtain ⟨name, definition, hname, hdefinition, rfl⟩ := hgives
  refine ⟨termOf raw' name definition, ⟨name, definition, ?_, ?_, rfl⟩, ?_, ?_⟩
  · rw [h.rest]
    exact hname
  · rw [h.rest]
    exact hdefinition
  · have hfilled := nonBlank?_eq_some_iff.mpr ⟨hwritten.2, hwritten.1⟩
    change identifierOf raw'.id name (foldCase name) = _
    rw [hid', identifierOf, Option.bind_some, hfilled]
  · rw [h.rest]
    rfl

theorem exists_renamed_terms {definitions others : List Definition}
    (h : List.Forall₂ (Definition.Renamed rename) definitions others)
    (hgives : List.Forall₂ Gives definitions terms)
    (hwritten : ∀ id ∈ terms.map Term.id, rename id ≠ [] ∧ (rename id).trim = rename id) :
    ∃ terms', List.Forall₂ Gives others terms' ∧
      List.Forall₂ (RenamedTerm rename) terms terms' := by
  induction h generalizing terms with
  | nil =>
    cases hgives
    exact ⟨[], .nil, .nil⟩
  | cons hraw _ ih =>
    cases hgives with
    | cons hfirst hrest =>
      rw [List.map_cons, List.forall_mem_cons] at hwritten
      obtain ⟨term', hterm, hrenamed⟩ := exists_renamed_term hraw hfirst hwritten.1
      obtain ⟨terms', hterms, hrenameds⟩ := ih hrest hwritten.2
      exact ⟨term' :: terms', .cons hterm hterms, .cons hrenamed hrenameds⟩

section Link

/-- A declared variant is linked by the key of the term that it refers to. -/
theorem link_declared (terms : List Term) (kind : VariantKind) (variant : DeclaredVariant) :
    (Submission.declared kind variant).link terms =
      match variant.text with
      | none => .error (.missingText kind variant.refersTo)
      | some text =>
        match (terms.find? fun term => variant.refersTo.map trim == some term.id).map Term.key with
        | none => .error (.unresolved kind text variant.refersTo)
        | some key => .ok ⟨kind, text, key, false⟩ := by
  obtain ⟨text, refersTo⟩ := variant
  have hfind : (terms.find? fun term => refersTo.map trim == some term.id) =
      refersTo.bind fun id => terms.find? (·.id == id.trim) := by
    cases refersTo with
    | none => simp
    | some id =>
      rw [Option.bind_some, Option.map_some]
      congr 1
      funext term
      rw [Option.some_beq_some, Bool.beq_comm]
  rw [Submission.link, hfind]
  cases text with
  | none => rfl
  | some text =>
    dsimp only
    cases refersTo.bind fun id => terms.find? (·.id == id.trim) <;> rfl

theorem find?_renamed {ids : List Text} {variant variant' : DeclaredVariant}
    (hinj : ∀ a ∈ ids, ∀ b ∈ ids, rename a = rename b → a = b)
    (hvariant : variant.Renamed rename ids variant')
    (h : List.Forall₂ (RenamedTerm rename) terms terms') (hids : ∀ term ∈ terms, term.id ∈ ids) :
    (terms'.find? fun term => variant'.refersTo.map trim == some term.id).map Term.key =
      (terms.find? fun term => variant.refersTo.map trim == some term.id).map Term.key := by
  induction h with
  | nil => rfl
  | @cons term term' _ _ hterm _ ih =>
    obtain ⟨hid, hids⟩ := List.forall_mem_cons.mp hids
    have hnames : (variant'.refersTo.map trim == some term'.id) =
        (variant.refersTo.map trim == some term.id) := by
      rw [Bool.eq_iff_iff, beq_iff_eq, beq_iff_eq, hterm.id]
      exact hvariant.refersTo_iff hinj hid
    rw [List.find?_cons, List.find?_cons, hnames]
    split
    · exact congrArg some hterm.key
    · exact ih hids

/-- A renamed variant is linked alike. -/
theorem link_renamed {ids : List Text} {variant variant' : DeclaredVariant}
    (hinj : ∀ a ∈ ids, ∀ b ∈ ids, rename a = rename b → a = b)
    (hvariant : variant.Renamed rename ids variant')
    (h : List.Forall₂ (RenamedTerm rename) terms terms') (hids : ∀ term ∈ terms, term.id ∈ ids)
    (kind : VariantKind) :
    LinkedAlike ((Submission.declared kind variant).link terms)
      ((Submission.declared kind variant').link terms') := by
  rw [link_declared, link_declared, hvariant.text, find?_renamed hinj hvariant h hids]
  cases variant.text with
  | none => exact .error rfl
  | some text =>
    dsimp only
    split
    · exact .error rfl
    · exact .ok _

private theorem flatMap_zip_eq (definitions : List Definition) (terms : List Term) :
    ((definitions.zip terms).flatMap fun pair =>
      pair.1.inflections.map (Submission.inflected pair.2.key · false)) =
      ((definitions.map Definition.inflections).zip (terms.map Term.key)).flatMap fun pair =>
        pair.1.map (.inflected pair.2 · false) := by
  rw [List.zip_map, List.flatMap_map]
  rfl

private theorem flatMap_forms_eq (rules : InflectionRules) (terms : List Term) :
    (terms.flatMap fun term => (rules.forms term.name).map (Submission.inflected term.key · true)) =
      (terms.map Term.anonymous).flatMap fun term =>
        (rules.forms term.name).map (.inflected term.key · true) := by
  rw [List.flatMap_map]
  rfl

private theorem inflections_renamed {definitions others : List Definition}
    (h : List.Forall₂ (Definition.Renamed rename) definitions others) :
    others.map Definition.inflections = definitions.map Definition.inflections := by
  induction h with
  | nil => rfl
  | cons hraw _ ih => rw [List.map_cons, List.map_cons, ih, hraw.rest]

/-- The submissions of a renamed source are linked alike, in the same order. -/
theorem submissions_renamed (hother : source.Renamed rename other) (rules : InflectionRules)
    (h : List.Forall₂ (RenamedTerm rename) terms terms')
    (hids : ∀ term ∈ terms, term.id ∈ source.ids) :
    List.Forall₂ (fun s s' => LinkedAlike (s.link terms) (s'.link terms'))
      (submissions source rules terms) (submissions other rules terms') := by
  have hdeclared (kind : VariantKind) {declared declared' : List DeclaredVariant}
      (hvariants : List.Forall₂ (DeclaredVariant.Renamed rename source.ids) declared declared') :
      List.Forall₂ (fun s s' => LinkedAlike (Submission.link terms s) (Submission.link terms' s'))
        (declared.map (.declared kind)) (declared'.map (.declared kind)) := by
    rw [List.forall₂_map_left_iff, List.forall₂_map_right_iff]
    exact hvariants.imp fun variant variant' hvariant =>
      link_renamed hother.injective hvariant h hids kind
  have hinflected {l : List Submission}
      (hl : ∀ s ∈ l, ∃ canonical text generated, s = .inflected canonical text generated) :
      List.Forall₂ (fun s s' => LinkedAlike (Submission.link terms s) (Submission.link terms' s'))
        l l := by
    apply List.forall₂_same.mpr
    intro s hs
    obtain ⟨canonical, text, generated, rfl⟩ := hl s hs
    exact .ok _
  have hanonymous := map_anonymous_of_renamed h
  have hkeys : terms'.map Term.key = terms.map Term.key :=
    map_eq_of_anonymous Term.key (fun _ => rfl) hanonymous
  unfold submissions
  rw [flatMap_zip_eq, flatMap_zip_eq, inflections_renamed hother.definitions, hkeys,
    flatMap_forms_eq rules terms, flatMap_forms_eq rules terms', hanonymous]
  apply List.rel_append
  · apply List.rel_append
    · apply List.rel_append
      · exact hdeclared _ hother.alternativeSpellings
      · exact hdeclared _ hother.alternativeTerms
    · apply hinflected
      intro s hs
      obtain ⟨⟨texts, canonical⟩, -, hs⟩ := List.mem_flatMap.mp hs
      obtain ⟨text, -, rfl⟩ := List.mem_map.mp hs
      exact ⟨canonical, text, false, rfl⟩
  · apply hinflected
    intro s hs
    obtain ⟨term, -, hs⟩ := List.mem_flatMap.mp hs
    obtain ⟨text, -, rfl⟩ := List.mem_map.mp hs
    exact ⟨term.key, text, true, rfl⟩

end Link

/-- A renamed source builds the same dictionary, but for identifiers and categories. -/
theorem build_renamed {dictionary : Dictionary} (h : build source rules = .ok dictionary)
    (hother : source.Renamed rename other) :
    ∃ dictionary', build other rules = .ok dictionary' ∧
      dictionary'.anonymous = dictionary.anonymous := by
  obtain ⟨hrules, -, hregister⟩ := build_eq_ok_iff.mp h
  have hgives := gives_of_build h
  have hkeys := keys_nodup_of_build h
  have hids := ids_nodup_of_build h
  have hsource : source.ids = dictionary.terms.map Term.id := filterMap_effectiveId? hgives
  obtain ⟨terms', hgives', hterms⟩ := exists_renamed_terms hother.definitions hgives
    (hsource ▸ hother.written)
  have hanonymous := map_anonymous_of_renamed hterms
  have haccept' : acceptAll [] other.definitions = .ok terms' := by
    apply acceptAll_of_gives hgives'
    · rw [List.nil_append, map_eq_of_anonymous Term.key (fun _ => rfl) hanonymous]
      exact hkeys
    · rw [List.nil_append, map_id_of_renamed hterms]
      exact hids.map_on (hsource ▸ hother.injective)
  have hregistry (terms : List Term) :
      Registry.anonymous (terms.map fun term => (term.key, .term term)) =
        (terms.map Term.anonymous).map fun term => (term.key, .term term) := by
    rw [Registry.anonymous, List.map_map, List.map_map]
    rfl
  obtain ⟨hvariants, hdropped, hdrops⟩ := registerAll_congr
    ((hregistry dictionary.terms).trans (hanonymous ▸ (hregistry terms').symm))
    (submissions_renamed hother rules hterms
      fun term hterm => hsource ▸ List.mem_map_of_mem hterm)
  rcases hregister' : registerAll terms' (terms'.map fun term => (term.key, .term term))
    (submissions other rules terms') with ⟨variants, dropped, drops⟩
  rw [hregister, hregister'] at hvariants hdropped hdrops
  refine ⟨⟨terms', variants, dropped, drops⟩,
    build_eq_ok_iff.mpr ⟨hrules, haccept', hregister'⟩, ?_⟩
  rw [anonymous, anonymous, hanonymous, ← hdrops]
  exact congrArg₂ (fun variants dropped => (⟨_, variants, dropped, _⟩ : Dictionary))
    hvariants.symm hdropped.symm

end Renamed

end Dictionary
end Gloss
