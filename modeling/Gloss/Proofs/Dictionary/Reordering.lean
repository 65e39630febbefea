import Gloss.Proofs.Dictionary.Stream
import Mathlib.Data.List.Perm.Basic

/-! Building from the same declarations in another order. The order decides which of two entries
with one case fold is kept, and nothing else: without a drop the same entries are registered. -/
namespace Gloss
open Text

/-- The same definition with its inflections in another order. -/
structure Definition.Reordered (raw other : Definition) : Prop where
  inflections : raw.inflections.Perm other.inflections
  rest : other = { raw with inflections := other.inflections }

/-- The same source with its declarations in another order. -/
structure Source.Reordered (source other : Source) : Prop where
  definitions : ∃ moved, source.definitions.Perm moved ∧
    List.Forall₂ Definition.Reordered moved other.definitions
  alternativeSpellings : source.alternativeSpellings.Perm other.alternativeSpellings
  alternativeTerms : source.alternativeTerms.Perm other.alternativeTerms

namespace Dictionary

theorem find?_perm {α : Type} (key : α → Text) {l m : List α} (hperm : l.Perm m)
    (h : (l.map key).Nodup) (x : Text) : l.find? (key · == x) = m.find? (key · == x) := by
  have hm : (m.map key).Nodup := (hperm.map key).nodup_iff.mp h
  apply Option.ext
  intro a
  rw [find?_eq_some_iff_of_nodup key h, find?_eq_some_iff_of_nodup key hm, hperm.mem_iff]

section Registering
variable {terms : List Term} {registry : Registry}

theorem Linked.variant_eq_ok_iff {linked : Linked} {variant : Variant} :
    linked.variant registry = .ok variant ↔
      (nonBlank? linked.text).map (⟨·, linked.canonical, linked.kind⟩) = some variant ∧
        registry.lookup (foldCase variant.text) = none := by
  unfold Linked.variant nonBlank?
  cases linked.text.trim with
  | nil => simp
  | cons c rest =>
    dsimp only
    rw [Option.map_some, Option.some.injEq]
    constructor
    · intro h
      split at h
      · next hfree =>
        cases h
        exact ⟨rfl, hfree⟩
      · split at h <;> cases h
    · rintro ⟨rfl, hfree⟩
      rw [hfree]

/-- The variant that a submission asks for, if its term and its text are known. -/
def Submission.variant? (terms : List Term) (submission : Submission) : Option Variant :=
  (submission.link terms).toOption.bind fun linked =>
    (nonBlank? linked.text).map (⟨·, linked.canonical, linked.kind⟩)

/-- A submission is registered when the case fold of its variant is free. -/
theorem register_eq_ok_iff {submission : Submission} {variant : Variant} :
    (submission.link terms).bind (Linked.variant registry) = .ok variant ↔
      submission.variant? terms = some variant ∧
        registry.lookup (foldCase variant.text) = none := by
  unfold Submission.variant?
  cases submission.link terms with
  | error drop => simp [Except.bind, Except.toOption]
  | ok linked => exact Linked.variant_eq_ok_iff

private theorem registerAll_cons_eq_iff {submission : Submission} {rest : List Submission}
    {variants : List Variant} :
    registerAll terms registry (submission :: rest) = (variants, 0, []) ↔
      ∃ variant more, variants = variant :: more ∧
        (submission.link terms).bind (Linked.variant registry) = .ok variant ∧
        registerAll terms ((foldCase variant.text, .variant variant) :: registry) rest =
          (more, 0, []) := by
  rw [registerAll]
  cases (submission.link terms).bind (Linked.variant registry) with
  | error drop => simp
  | ok variant =>
    rw [Prod.mk.injEq]
    constructor
    · rintro ⟨rfl, hdrops⟩
      exact ⟨variant, _, rfl, rfl, Prod.ext rfl hdrops⟩
    · rintro ⟨_, more, rfl, hvariant, hmore⟩
      cases hvariant
      rw [hmore]
      exact ⟨rfl, rfl⟩

private theorem lookup_cons_eq_none_iff {key x : Text} {entry : Entry} :
    List.lookup x ((key, entry) :: registry) = none ↔ x ≠ key ∧ registry.lookup x = none := by
  rw [List.lookup_cons]
  by_cases hx : x = key
  · simp [hx]
  · simp [hx, beq_false_of_ne hx]

/-- Nothing is dropped when every submission asks for a variant and all case folds are free. -/
theorem registerAll_eq_iff {submitted : List Submission} {variants : List Variant} :
    registerAll terms registry submitted = (variants, 0, []) ↔
      List.Forall₂ (fun submission variant => submission.variant? terms = some variant)
        submitted variants ∧
      (variants.map (foldCase ∘ Variant.text)).Nodup ∧
      ∀ variant ∈ variants, registry.lookup (foldCase variant.text) = none := by
  induction submitted generalizing registry variants with
  | nil =>
    rw [registerAll, List.forall₂_nil_left_iff, Prod.mk.injEq]
    constructor
    · rintro ⟨rfl, -⟩
      exact ⟨rfl, List.nodup_nil, List.forall_mem_nil _⟩
    · rintro ⟨rfl, -⟩
      exact ⟨rfl, rfl⟩
  | cons submission rest ih =>
    rw [registerAll_cons_eq_iff]
    simp only [ih, register_eq_ok_iff, lookup_cons_eq_none_iff]
    constructor
    · rintro ⟨variant, more, rfl, ⟨hvariant, hnew⟩, hasked, hnodup, hfree⟩
      refine ⟨.cons hvariant hasked, List.nodup_cons.mpr ⟨?_, hnodup⟩, ?_⟩
      · intro hmem
        obtain ⟨later, hlater, he⟩ := List.mem_map.mp hmem
        exact (hfree later hlater).1 he
      · intro later hlater
        rcases List.mem_cons.mp hlater with rfl | hlater
        · exact hnew
        · exact (hfree later hlater).2
    · rintro ⟨hasked, hnodup, hfree⟩
      cases hasked with
      | @cons _ variant _ more hvariant hmore =>
        obtain ⟨hdiffer, hnodup⟩ := List.nodup_cons.mp hnodup
        refine ⟨variant, more, rfl, ⟨hvariant, hfree _ List.mem_cons_self⟩, hmore, hnodup, ?_⟩
        intro later hlater
        refine ⟨?_, hfree later (List.mem_cons_of_mem _ hlater)⟩
        intro he
        exact hdiffer (List.mem_map.mpr ⟨later, hlater, he⟩)

end Registering

section Reordered
variable {source other : Source} {terms terms' : List Term}

private theorem gives_of_reordered {moved definitions : List Definition}
    (h : List.Forall₂ Definition.Reordered moved definitions)
    (hgives : List.Forall₂ Gives moved terms) : List.Forall₂ Gives definitions terms := by
  induction h generalizing terms with
  | nil =>
    cases hgives
    exact .nil
  | cons hraw _ ih =>
    cases hgives with
    | cons hfirst hrest =>
      refine .cons ?_ (ih hrest)
      rw [hraw.rest]
      exact hfirst

theorem exists_gives_of_reordered (h : source.Reordered other)
    (hgives : List.Forall₂ Gives source.definitions terms) :
    ∃ terms', List.Forall₂ Gives other.definitions terms' ∧ terms.Perm terms' := by
  obtain ⟨moved, hperm, hmoved⟩ := h.definitions
  obtain ⟨terms', hgives', hterms⟩ := List.perm_comp_forall₂ hperm.symm hgives
  exact ⟨terms', gives_of_reordered hmoved hgives', hterms.symm⟩

theorem variant?_perm (hperm : terms.Perm terms') (hids : (terms.map Term.id).Nodup) :
    Submission.variant? terms = Submission.variant? terms' := by
  funext submission
  unfold Submission.variant? Submission.link
  cases submission with
  | inflected canonical text generated => rfl
  | declared kind variant => simp only [find?_perm Term.id hperm hids]

def given? (raw : Definition) : Option Term :=
  (raw.term.bind nonBlank?).bind fun name =>
    (raw.definition.bind nonBlank?).map (termOf raw name)

private theorem given?_of_gives {raw : Definition} {term : Term} (h : Gives raw term) :
    given? raw = some term := by
  obtain ⟨name, definition, hname, hdefinition, rfl⟩ := h
  rw [given?, hname, hdefinition]
  rfl

def inflectionsOf (raw : Definition) : List Submission :=
  (given? raw).elim [] fun term => raw.inflections.map (.inflected term.key · false)

private theorem flatMap_zip {definitions : List Definition}
    (h : List.Forall₂ Gives definitions terms) :
    ((definitions.zip terms).flatMap fun pair =>
      pair.1.inflections.map (Submission.inflected pair.2.key · false)) =
        definitions.flatMap inflectionsOf := by
  induction h with
  | nil => rfl
  | cons hgives _ ih =>
    rw [List.zip_cons_cons, List.flatMap_cons, List.flatMap_cons, ih, inflectionsOf,
      given?_of_gives hgives]
    rfl

private theorem inflectionsOf_reordered {raw raw' : Definition} (h : raw.Reordered raw') :
    (inflectionsOf raw).Perm (inflectionsOf raw') := by
  have hgiven : given? raw' = given? raw := by
    rw [h.rest]
    rfl
  unfold inflectionsOf
  rw [hgiven]
  cases given? raw with
  | none => exact List.Perm.nil
  | some term => exact h.inflections.map _

private theorem flatMap_inflectionsOf {moved definitions : List Definition}
    (h : List.Forall₂ Definition.Reordered moved definitions) :
    (moved.flatMap inflectionsOf).Perm (definitions.flatMap inflectionsOf) := by
  induction h with
  | nil => exact List.Perm.nil
  | cons hraw _ ih =>
    rw [List.flatMap_cons, List.flatMap_cons]
    exact (inflectionsOf_reordered hraw).append ih

theorem submissions_reordered (h : source.Reordered other) (rules : InflectionRules)
    (hgives : List.Forall₂ Gives source.definitions terms)
    (hgives' : List.Forall₂ Gives other.definitions terms') (hterms : terms.Perm terms') :
    (submissions source rules terms).Perm (submissions other rules terms') := by
  obtain ⟨moved, hperm, hmoved⟩ := h.definitions
  unfold submissions
  rw [flatMap_zip hgives, flatMap_zip hgives']
  apply List.Perm.append
  · apply List.Perm.append
    · exact (h.alternativeSpellings.map _).append (h.alternativeTerms.map _)
    · exact (hperm.flatMap_right inflectionsOf).trans (flatMap_inflectionsOf hmoved)
  · exact hterms.flatMap_right _

/-- When nothing is dropped, every order of the declarations gives the same entries. -/
theorem build_reordered {rules : InflectionRules} {dictionary : Dictionary}
    (h : build source rules = .ok dictionary) (hdropped : dictionary.dropped = 0)
    (hother : source.Reordered other) :
    ∃ dictionary', build other rules = .ok dictionary' ∧ dictionary'.dropped = 0 ∧
      dictionary.terms.Perm dictionary'.terms ∧
      dictionary.variants.Perm dictionary'.variants := by
  obtain ⟨hrules, -, hregister⟩ := build_eq_ok_iff.mp h
  have hgives := gives_of_build h
  have hkeys := keys_nodup_of_build h
  have hids := ids_nodup_of_build h
  obtain ⟨terms', hgives', hterms⟩ := exists_gives_of_reordered hother hgives
  have hdrops : dictionary.drops = [] :=
    List.eq_nil_of_length_eq_zero ((length_drops_of_build h).trans hdropped)
  rw [hdropped, hdrops, registerAll_eq_iff] at hregister
  obtain ⟨hasked, hnodup, hfree⟩ := hregister
  have hsubmitted := submissions_reordered hother rules hgives hgives' hterms
  rw [variant?_perm hterms hids] at hasked
  obtain ⟨variants', hasked', hvariants⟩ := List.perm_comp_forall₂ hsubmitted.symm hasked
  have hregister' : registerAll terms' (terms'.map fun term => (term.key, .term term))
      (submissions other rules terms') = (variants', 0, []) := by
    refine registerAll_eq_iff.mpr ⟨hasked', ?_, ?_⟩
    · exact (hvariants.map _).nodup_iff.mpr hnodup
    · intro variant hvariant
      have hold := hfree variant (hvariants.mem_iff.mp hvariant)
      rw [lookup_terms_eq_none_iff] at hold ⊢
      rwa [← (hterms.map Term.key).mem_iff]
  have haccept' : acceptAll [] other.definitions = .ok terms' := by
    apply acceptAll_of_gives hgives'
    · exact (hterms.map _).nodup_iff.mp hkeys
    · exact (hterms.map _).nodup_iff.mp hids
  exact ⟨⟨terms', variants', 0, []⟩, build_eq_ok_iff.mpr ⟨hrules, haccept', hregister'⟩, rfl,
    hterms, hvariants.symm⟩

end Reordered
end Dictionary
end Gloss
