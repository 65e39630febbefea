import Gloss.Dictionary.Lookup
import Gloss.Proofs.Dictionary.Acceptance

/-! A build as one stream of registrations. Terms and variants are submitted in a fixed order, and
the first of each case fold is kept. -/
namespace Gloss
open Text

structure Registration where
  text : Text
  kind : EntryKind
  canonical : Text
  deriving DecidableEq, Repr

def Registration.trimmed (registration : Registration) : Registration :=
  { registration with text := registration.text.trim }

def Entry.registration (entry : Entry) : Registration :=
  ⟨entry.text, entry.kind, entry.canonicalKey⟩

def EntryKind.rank : EntryKind → Nat
  | .canonical => 0
  | .variant .alternativeSpelling => 1
  | .variant .alternativeTerm => 2
  | .variant .inflectedForm => 3

namespace Dictionary
variable {source : Source} {rules : InflectionRules} {terms : List Term}

/-- The declared variants that have a text and refer to the identifier of a term. -/
def declaredStream (terms : List Term) (kind : VariantKind) (declared : List DeclaredVariant) :
    List Registration :=
  declared.filterMap fun variant => do
    let text ← variant.text
    let id ← variant.refersTo
    let term ← terms.find? (·.id == id.trim)
    return ⟨text, .variant kind, term.key⟩

def canonicalStream (source : Source) : List Registration :=
  source.definitions.filterMap fun raw =>
    raw.term.map fun name => ⟨name, .canonical, foldCase name.trim⟩

/-- Declared spellings, declared terms, declared inflections and generated forms, in this order. -/
def variantStream (source : Source) (rules : InflectionRules) (terms : List Term) :
    List Registration :=
  declaredStream terms .alternativeSpelling source.alternativeSpellings
    ++ declaredStream terms .alternativeTerm source.alternativeTerms
    ++ (source.definitions.zip terms).flatMap (fun pair =>
        pair.1.inflections.map (⟨·, .variant .inflectedForm, pair.2.key⟩))
    ++ if rules.enabled then
        terms.flatMap fun term =>
          (rules.forms term.name).map (⟨·, .variant .inflectedForm, term.key⟩)
      else []

/-- Everything that is submitted for a source whose definitions give `terms`, as it is written. -/
def stream (source : Source) (rules : InflectionRules) (terms : List Term) : List Registration :=
  canonicalStream source ++ variantStream source rules terms

def cleaned (registrations : List Registration) : List Registration :=
  (registrations.map .trimmed).filter (!·.text.isBlank)

def Linked.registration (linked : Linked) : Registration :=
  ⟨linked.text, .variant linked.kind, linked.canonical⟩

def Submission.registration? (terms : List Term) (submission : Submission) :
    Option Registration :=
  (submission.link terms).toOption.map Linked.registration

private theorem filterMap_declared (kind : VariantKind) (declared : List DeclaredVariant) :
    (declared.map (.declared kind)).filterMap (Submission.registration? terms) =
      declaredStream terms kind declared := by
  rw [List.filterMap_map, declaredStream]
  congr 1
  funext variant
  obtain ⟨text, refersTo⟩ := variant
  cases text with
  | none => rfl
  | some text =>
    cases refersTo with
    | none => rfl
    | some id =>
      cases h : terms.find? (·.id == id.trim) <;>
        simp [Submission.registration?, Submission.link, h, Except.toOption, Linked.registration]

private theorem filterMap_inflected (canonical : Text) (generated : Bool) (texts : List Text) :
    (texts.map (.inflected canonical · generated)).filterMap (Submission.registration? terms) =
      texts.map (⟨·, .variant .inflectedForm, canonical⟩) := by
  rw [List.filterMap_map]
  exact congrFun List.filterMap_eq_map texts

/-- Linking turns the submissions of a build into the variants of the stream. -/
theorem filterMap_submissions :
    (submissions source rules terms).filterMap (Submission.registration? terms) =
      variantStream source rules terms := by
  have hgenerated : (terms.flatMap fun term =>
      (rules.forms term.name).map (⟨·, EntryKind.variant .inflectedForm, term.key⟩)) =
      if rules.enabled then
        terms.flatMap fun term =>
          (rules.forms term.name).map (⟨·, .variant .inflectedForm, term.key⟩)
      else ([] : List Registration) := by
    by_cases h : rules.enabled
    · rw [if_pos h]
    · simp [h, InflectionRules.forms]
  rw [variantStream, ← hgenerated]
  simp only [submissions, List.filterMap_append, filterMap_declared, List.filterMap_flatMap,
    filterMap_inflected]

private theorem cleaned_cons (registration : Registration) (rest : List Registration) :
    cleaned (registration :: rest) =
      if registration.text.isBlank then cleaned rest
      else registration.trimmed :: cleaned rest := by
  unfold cleaned
  rw [List.map_cons, List.filter_cons]
  simp only [Registration.trimmed, isBlank_trim]
  cases registration.text.isBlank <;> rfl

private theorem cleaned_append (l m : List Registration) :
    cleaned (l ++ m) = cleaned l ++ cleaned m := by
  simp [cleaned]

namespace Linked
variable {linked : Linked} {registry : Registry}

theorem registration_of_variant {variant : Variant} (h : linked.variant registry = .ok variant) :
    linked.registration.text.isBlank = false ∧
      registry.lookup (foldCase linked.registration.trimmed.text) = none ∧
      linked.registration.trimmed = (Entry.variant variant).registration := by
  unfold Linked.variant at h
  split at h
  · cases h
  · next hsound =>
    split at h
    · next hfree =>
      cases h
      exact ⟨Bool.eq_false_iff.mpr (mt trim_eq_nil_iff.mpr hsound), hfree, rfl⟩
    · split at h <;> cases h

theorem blank_or_taken_of_drop {drop : Drop} (h : linked.variant registry = .error drop) :
    linked.registration.text.isBlank = true ∨
      registry.lookup (foldCase linked.registration.trimmed.text) ≠ none := by
  unfold Linked.variant at h
  split at h
  · next hblank => exact .inl (trim_eq_nil_iff.mp hblank)
  · split at h
    · cases h
    · next htaken => exact .inr fun hfree => Option.some_ne_none _ (htaken.symm.trans hfree)

end Linked

def Registry.Covers (registry : Registry) (kept : List Registration) : Prop :=
  ∀ x, registry.lookup x = none ↔ x ∉ kept.map (foldCase ∘ Registration.text)

theorem Registry.Covers.cons {registry : Registry} {kept : List Registration}
    (h : registry.Covers kept) (entry : Entry) :
    Registry.Covers ((foldCase entry.text, entry) :: registry) (kept ++ [entry.registration]) := by
  intro x
  rw [List.lookup_cons]
  by_cases hx : x = foldCase entry.text
  · simp [hx, Entry.registration]
  · simp [hx, h x, Entry.registration, beq_false_of_ne hx]

section Registering
variable {registry : Registry} {submission : Submission} {rest : List Submission}

private theorem registerAll_of_error {drop : Drop}
    (h : (submission.link terms).bind (Linked.variant registry) = .error drop) :
    (registerAll terms registry (submission :: rest)).1 = (registerAll terms registry rest).1 := by
  rw [registerAll, h]

private theorem registerAll_of_ok {variant : Variant}
    (h : (submission.link terms).bind (Linked.variant registry) = .ok variant) :
    (registerAll terms registry (submission :: rest)).1 = variant ::
      (registerAll terms ((foldCase variant.text, .variant variant) :: registry) rest).1 := by
  rw [registerAll, h]

/-- Registering submissions keeps the first registration of each case fold. -/
theorem registerAll_eq_foldl (terms : List Term) {kept : List Registration}
    (h : registry.Covers kept) (submitted : List Submission) :
    kept ++ (registerAll terms registry submitted).1.map (Entry.registration ∘ Entry.variant) =
      (cleaned (submitted.filterMap (Submission.registration? terms))).foldl
        (keepNew Registration.text) kept := by
  -- On the submissions; every step leaves the registry with the case folds of what is kept.
  induction submitted generalizing registry kept with
  | nil => simp [registerAll, cleaned]
  | cons submission rest ih =>
    cases hlink : submission.link terms with
    | error drop =>
      have hnone : submission.registration? terms = none := by
        rw [Submission.registration?, hlink]
        rfl
      have hdrop : (submission.link terms).bind (Linked.variant registry) = .error drop := by
        rw [hlink]
        rfl
      rw [List.filterMap_cons_none hnone, registerAll_of_error hdrop]
      exact ih h
    | ok linked =>
      have hsome : submission.registration? terms = some linked.registration := by
        rw [Submission.registration?, hlink]
        rfl
      have hbind : (submission.link terms).bind (Linked.variant registry) =
          linked.variant registry := by
        rw [hlink]
        rfl
      rw [List.filterMap_cons_some hsome, cleaned_cons]
      cases hvariant : linked.variant registry with
      | error drop =>
        rw [registerAll_of_error (hbind.trans hvariant), ih h]
        split_ifs with hblank
        · rfl
        · have htaken := (Linked.blank_or_taken_of_drop hvariant).resolve_left hblank
          rw [List.foldl_cons, keepNew_of_taken (Classical.not_not.mp (mt (h _).mpr htaken))]
      | ok variant =>
        obtain ⟨hsound, hfree, hentry⟩ := Linked.registration_of_variant hvariant
        rw [registerAll_of_ok (hbind.trans hvariant), if_neg (Bool.eq_false_iff.mp hsound),
          List.foldl_cons, keepNew_of_new ((h _).mp hfree), hentry, ← ih (h.cons (.variant variant)),
          List.append_assoc]
        rfl

/-- Every drop is counted once and logged once. -/
theorem length_drops_registerAll (terms : List Term) (registry : Registry)
    (submitted : List Submission) :
    (registerAll terms registry submitted).2.2.length =
      (registerAll terms registry submitted).2.1 := by
  induction submitted generalizing registry with
  | nil => rfl
  | cons submission rest ih =>
    rw [registerAll]
    cases (submission.link terms).bind (Linked.variant registry) with
    | error drop => exact congrArg Nat.succ (ih registry)
    | ok variant => exact ih _

end Registering

/-- What a build that succeeds has gone through. -/
theorem build_eq_ok_iff {dictionary : Dictionary} :
    build source rules = .ok dictionary ↔
      rules.fault? = none ∧ acceptAll [] source.definitions = .ok dictionary.terms ∧
        registerAll dictionary.terms (dictionary.terms.map fun term => (term.key, .term term))
          (submissions source rules dictionary.terms) =
            (dictionary.variants, dictionary.dropped, dictionary.drops) := by
  unfold build
  cases hrules : rules.fault? with
  | some fault => simp [bind, Except.bind, throw, throwThe, MonadExceptOf.throw]
  | none =>
    cases haccept : acceptAll [] source.definitions with
    | error fault => simp [bind, Except.bind]
    | ok terms =>
      obtain ⟨terms', variants, dropped, drops⟩ := dictionary
      simp only [bind, Except.bind, pure, Except.pure, Except.ok.injEq, mk.injEq, true_and]
      constructor
      · rintro ⟨rfl, rfl, rfl, rfl⟩
        exact ⟨rfl, rfl⟩
      · rintro ⟨rfl, h⟩
        rw [h]
        exact ⟨rfl, rfl, rfl, rfl⟩

theorem length_drops_of_build {dictionary : Dictionary} (h : build source rules = .ok dictionary) :
    dictionary.drops.length = dictionary.dropped := by
  have hcount := length_drops_registerAll dictionary.terms
    (dictionary.terms.map fun term => (term.key, .term term))
    (submissions source rules dictionary.terms)
  rwa [(build_eq_ok_iff.mp h).2.2] at hcount

private theorem cleaned_canonicalStream {definitions : List Definition} {accepted : List Term}
    (h : List.Forall₂ Gives definitions accepted) :
    cleaned (definitions.filterMap fun raw =>
      raw.term.map fun name => ⟨name, .canonical, foldCase name.trim⟩) =
      accepted.map (Entry.registration ∘ Entry.term) := by
  induction h with
  | nil => rfl
  | cons hgives _ ih =>
    obtain ⟨name, definition, hname, -, rfl⟩ := hgives
    obtain ⟨written, hwritten, hname⟩ := Option.bind_eq_some_iff.mp hname
    obtain ⟨rfl, hne⟩ := nonBlank?_eq_some_iff.mp hname
    have hsound : ¬ written.isBlank = true := fun hblank => hne (trim_eq_nil_iff.mpr hblank)
    rw [List.filterMap_cons_some (by rw [hwritten]; rfl), cleaned_cons, if_neg hsound, ih]
    rfl

private theorem map_key_of_gives {definitions : List Definition} {accepted : List Term}
    (h : List.Forall₂ Gives definitions accepted) :
    (accepted.map (Entry.registration ∘ Entry.term)).map (foldCase ∘ Registration.text) =
      accepted.map Term.key := by
  induction h with
  | nil => rfl
  | cons hgives _ ih =>
    rw [List.map_cons, List.map_cons, List.map_cons, ih, key_of_gives hgives]
    rfl

theorem lookup_terms_eq_none_iff {x : Text} :
    List.lookup x (terms.map fun term => (term.key, Entry.term term)) = none ↔
      x ∉ terms.map Term.key := by
  rw [List.lookup_eq_none_iff, List.forall_mem_map]
  simp only [List.mem_map, not_exists, not_and, bne_iff_ne, ne_eq]
  exact forall₂_congr fun term _ => not_congr eq_comm

private theorem covers_of_gives {definitions : List Definition} {accepted : List Term}
    (h : List.Forall₂ Gives definitions accepted) :
    Registry.Covers (accepted.map fun term => (term.key, .term term))
      (accepted.map (Entry.registration ∘ Entry.term)) := by
  intro x
  rw [map_key_of_gives h]
  exact lookup_terms_eq_none_iff

section Order

/-- Kinds never decrease along a list, and end at `top` or before. -/
private def Ranked (top : Nat) (registrations : List Registration) : Prop :=
  registrations.Pairwise (fun a b => a.kind.rank ≤ b.kind.rank) ∧
    ∀ a ∈ registrations, a.kind.rank ≤ top

private theorem Ranked.append {top : Nat} {l m : List Registration} (h : Ranked top l)
    (kind : EntryKind) (hm : ∀ a ∈ m, a.kind = kind) (hle : top ≤ kind.rank) :
    Ranked kind.rank (l ++ m) := by
  refine ⟨List.pairwise_append.mpr ⟨h.1, ?_, ?_⟩, ?_⟩
  · exact List.pairwise_of_forall_mem_list fun a ha b hb => by rw [hm a ha, hm b hb]
  · intro a ha b hb
    rw [hm b hb]
    exact (h.2 a ha).trans hle
  · intro a ha
    rcases List.mem_append.mp ha with ha | ha
    · exact (h.2 a ha).trans hle
    · rw [hm a ha]

private theorem kind_of_mem_declaredStream {kind : VariantKind} {declared : List DeclaredVariant}
    {a : Registration} (h : a ∈ declaredStream terms kind declared) : a.kind = .variant kind := by
  obtain ⟨variant, -, ha⟩ := List.mem_filterMap.mp h
  simp only [Option.bind_eq_bind, Option.bind_eq_some_iff, Option.pure_def,
    Option.some.injEq] at ha
  obtain ⟨text, -, id, -, term, -, rfl⟩ := ha
  rfl

private theorem stream_ranked : Ranked 3 (stream source rules terms) := by
  have hcanonical : Ranked 0 (canonicalStream source) := by
    have hkind (a : Registration) (ha : a ∈ canonicalStream source) : a.kind = .canonical := by
      obtain ⟨raw, -, ha⟩ := List.mem_filterMap.mp ha
      obtain ⟨name, -, rfl⟩ := Option.map_eq_some_iff.mp ha
      rfl
    exact Ranked.append (l := []) ⟨List.Pairwise.nil, by simp⟩ .canonical hkind (Nat.le_refl 0)
  unfold stream variantStream
  rw [← List.append_assoc, ← List.append_assoc, ← List.append_assoc]
  refine (((hcanonical.append (.variant .alternativeSpelling) ?_ (by decide)).append
    (.variant .alternativeTerm) ?_ (by decide)).append
    (.variant .inflectedForm) ?_ (by decide)).append (.variant .inflectedForm) ?_ (Nat.le_refl 3)
  · exact fun a ha => kind_of_mem_declaredStream ha
  · exact fun a ha => kind_of_mem_declaredStream ha
  · intro a ha
    obtain ⟨pair, -, ha⟩ := List.mem_flatMap.mp ha
    obtain ⟨text, -, rfl⟩ := List.mem_map.mp ha
    rfl
  · intro a ha
    split at ha
    · obtain ⟨term, -, ha⟩ := List.mem_flatMap.mp ha
      obtain ⟨text, -, rfl⟩ := List.mem_map.mp ha
      rfl
    · cases ha

private theorem cleaned_ranked (source : Source) (rules : InflectionRules) (terms : List Term) :
    (cleaned (stream source rules terms)).Pairwise fun a b => a.kind.rank ≤ b.kind.rank := by
  refine List.Pairwise.filter _ (List.pairwise_map.mpr ?_)
  exact stream_ranked.1

end Order

/-- A build keeps the first registration of each case fold, in one stream. -/
theorem registrations_of_build {dictionary : Dictionary}
    (h : build source rules = .ok dictionary) :
    List.Forall₂ Gives source.definitions dictionary.terms ∧
      dictionary.entries.map Entry.registration =
        keepFirst Registration.text (cleaned (stream source rules dictionary.terms)) := by
  obtain ⟨-, haccept, hregister⟩ := build_eq_ok_iff.mp h
  obtain ⟨⟨more, hmore, hgives⟩, hkeys, -⟩ := gives_of_acceptAll haccept .nil .nil
  rw [List.nil_append] at hmore
  subst hmore
  refine ⟨hgives, ?_⟩
  have hcanonical : cleaned (canonicalStream source) =
      dictionary.terms.map (Entry.registration ∘ Entry.term) := cleaned_canonicalStream hgives
  have hkept : keepFirst Registration.text (cleaned (canonicalStream source)) =
      dictionary.terms.map (Entry.registration ∘ Entry.term) := by
    rw [hcanonical]
    exact keepFirst_of_nodup (by rwa [map_key_of_gives hgives])
  have hvariants := registerAll_eq_foldl dictionary.terms (covers_of_gives hgives)
    (submissions source rules dictionary.terms)
  rw [hregister, filterMap_submissions, ← hkept, keepFirst, ← List.foldl_append,
    ← cleaned_append, ← stream, ← keepFirst, ← keepFirst, hkept] at hvariants
  rw [← hvariants, entries, List.map_append, List.map_map, List.map_map]

theorem gives_of_build {dictionary : Dictionary} (h : build source rules = .ok dictionary) :
    List.Forall₂ Gives source.definitions dictionary.terms :=
  (registrations_of_build h).1

theorem key_of_build {dictionary : Dictionary} (h : build source rules = .ok dictionary)
    {term : Term} (hterm : term ∈ dictionary.terms) : term.key = foldCase term.name := by
  obtain ⟨raw, -, hgives⟩ := exists_definition (gives_of_build h) hterm
  exact key_of_gives hgives

theorem keys_nodup_of_build {dictionary : Dictionary} (h : build source rules = .ok dictionary) :
    (dictionary.terms.map Term.key).Nodup :=
  (gives_of_acceptAll (build_eq_ok_iff.mp h).2.1 .nil .nil).2.1

theorem ids_nodup_of_build {dictionary : Dictionary} (h : build source rules = .ok dictionary) :
    (dictionary.terms.map Term.id).Nodup :=
  (gives_of_acceptAll (build_eq_ok_iff.mp h).2.1 .nil .nil).2.2

/-- No two entries of a dictionary have the same case fold. -/
theorem folds_nodup_of_build {dictionary : Dictionary} (h : build source rules = .ok dictionary) :
    (dictionary.entries.map (foldCase ∘ Entry.text)).Nodup := by
  have hnodup : ((keepFirst Registration.text (cleaned
      (stream source rules dictionary.terms))).map (foldCase ∘ Registration.text)).Nodup :=
    keepFirst_nodup _
  rw [← (registrations_of_build h).2, List.map_map] at hnodup
  exact hnodup

theorem text_ne_nil_of_build {dictionary : Dictionary} (h : build source rules = .ok dictionary)
    {entry : Entry} (hentry : entry ∈ dictionary.entries) : entry.text ≠ [] := by
  have hmem := List.mem_map_of_mem (f := Entry.registration) hentry
  rw [(registrations_of_build h).2] at hmem
  have hsound := (List.mem_filter.mp ((keepFirst_sublist _).subset hmem)).2
  intro hnil
  simp [Entry.registration, hnil, isBlank] at hsound

private theorem canonical_mem_of_mem_variantStream {a : Registration}
    (h : a ∈ variantStream source rules terms) : a.canonical ∈ terms.map Term.key := by
  have hdeclared (kind : VariantKind) (declared : List DeclaredVariant)
      (ha : a ∈ declaredStream terms kind declared) : a.canonical ∈ terms.map Term.key := by
    obtain ⟨variant, -, ha⟩ := List.mem_filterMap.mp ha
    simp only [Option.bind_eq_bind, Option.bind_eq_some_iff, Option.pure_def,
      Option.some.injEq] at ha
    obtain ⟨text, -, id, -, term, hterm, rfl⟩ := ha
    exact List.mem_map_of_mem (List.mem_of_find?_eq_some hterm)
  unfold variantStream at h
  simp only [List.mem_append, List.mem_flatMap, List.mem_map] at h
  rcases h with ((h | h) | ⟨⟨raw, term⟩, hpair, text, -, rfl⟩) | h
  · exact hdeclared _ _ h
  · exact hdeclared _ _ h
  · exact List.mem_map_of_mem (List.of_mem_zip hpair).2
  · split at h
    · obtain ⟨term, hterm, h⟩ := List.mem_flatMap.mp h
      obtain ⟨text, -, rfl⟩ := List.mem_map.mp h
      exact List.mem_map_of_mem hterm
    · cases h

theorem canonicalKey_mem_of_build {dictionary : Dictionary}
    (h : build source rules = .ok dictionary) {entry : Entry} (hentry : entry ∈ dictionary.entries) :
    entry.canonicalKey ∈ dictionary.terms.map Term.key := by
  cases entry with
  | term term =>
    simp only [entries, List.mem_append, List.mem_map, Entry.term.injEq, reduceCtorEq, and_false,
      exists_false, or_false, exists_eq_right] at hentry
    exact List.mem_map_of_mem hentry
  | variant variant =>
    have hmem := List.mem_map_of_mem (f := Entry.registration) hentry
    rw [(registrations_of_build h).2] at hmem
    have hstream := List.mem_of_mem_filter ((keepFirst_sublist _).subset hmem)
    obtain ⟨a, ha, he⟩ := List.mem_map.mp hstream
    have hcanonical : a.canonical = variant.canonical := congrArg Registration.canonical he
    rcases List.mem_append.mp ha with ha | ha
    · -- A canonical registration is no variant.
      obtain ⟨raw, -, ha⟩ := List.mem_filterMap.mp ha
      obtain ⟨name, -, rfl⟩ := Option.map_eq_some_iff.mp ha
      cases congrArg Registration.kind he
    · rw [Entry.canonicalKey, ← hcanonical]
      exact canonical_mem_of_mem_variantStream ha

/-- Building is registering one stream, first come first kept: the terms of the definitions, then
declared spellings, declared terms, declared inflections and generated forms. -/
theorem build_keeps_first {dictionary : Dictionary} (h : build source rules = .ok dictionary) :
    let kept := keepFirst Registration.text (cleaned (stream source rules dictionary.terms))
    List.Forall₂ Gives source.definitions dictionary.terms ∧
    dictionary.entries.map Entry.registration = kept ∧
    dictionary.terms.map (Entry.registration ∘ Entry.term) =
      kept.filter (!·.kind.isVariant) ∧
    dictionary.variants.map (Entry.registration ∘ Entry.variant) =
      kept.filter (·.kind.isVariant) ∧
    (dictionary.entries.map (foldCase ∘ Entry.text)).Nodup ∧
    dictionary.entries.Pairwise fun a b => a.kind.rank ≤ b.kind.rank := by
  intro kept
  obtain ⟨hgives, hkept⟩ := registrations_of_build h
  have hentries : dictionary.entries.map Entry.registration = kept := hkept
  have hsplit : kept = dictionary.terms.map (Entry.registration ∘ Entry.term) ++
      dictionary.variants.map (Entry.registration ∘ Entry.variant) := by
    rw [← hentries, entries, List.map_append, List.map_map, List.map_map]
  have hterms (a : Registration)
      (ha : a ∈ dictionary.terms.map (Entry.registration ∘ Entry.term)) :
      a.kind.isVariant = false := by
    obtain ⟨term, -, rfl⟩ := List.mem_map.mp ha
    rfl
  have hvariants (a : Registration)
      (ha : a ∈ dictionary.variants.map (Entry.registration ∘ Entry.variant)) :
      a.kind.isVariant = true := by
    obtain ⟨variant, -, rfl⟩ := List.mem_map.mp ha
    rfl
  refine ⟨hgives, hentries, ?_, ?_, folds_nodup_of_build h, ?_⟩
  · rw [hsplit, List.filter_append, List.filter_eq_self.mpr (by simpa using hterms),
      List.filter_eq_nil_iff.mpr (by simpa using hvariants), List.append_nil]
  · rw [hsplit, List.filter_append, List.filter_eq_nil_iff.mpr (by simpa using hterms),
      List.filter_eq_self.mpr (by simpa using hvariants), List.nil_append]
  · have hsub : kept.Sublist (cleaned (stream source rules dictionary.terms)) :=
      keepFirst_sublist _
    have hranked := (cleaned_ranked source rules dictionary.terms).sublist hsub
    rw [← hentries, List.pairwise_map] at hranked
    exact hranked

def collidingSource : Source where
  definitions :=
    [{ term := some " Kat ".toList, definition := some "dier".toList,
       inflections := ["KATJE".toList, " kats".toList] },
     { term := some "Tje".toList, definition := some "uitgang".toList }]
  alternativeSpellings :=
    [{ text := some "kAt".toList, refersTo := some "tje".toList },
     { text := some "katje ".toList, refersTo := some " kat".toList },
     { text := some "poes".toList, refersTo := some "hond".toList }]

theorem build_keeps_first_colliding : ∃ dictionary,
    build collidingSource { suffixes := ["s".toList] } = .ok dictionary ∧
    dictionary.entries.map Entry.registration = keepFirst Registration.text (cleaned
      (stream collidingSource { suffixes := ["s".toList] } dictionary.terms)) ∧
    (dictionary.entries.map (foldCase ∘ Entry.text)).Nodup ∧
    dictionary.variants.map (Entry.registration ∘ Entry.variant) =
      [⟨"katje".toList, .variant .alternativeSpelling, "kat".toList⟩,
       ⟨"kats".toList, .variant .inflectedForm, "kat".toList⟩,
       ⟨"Katten".toList, .variant .inflectedForm, "kat".toList⟩,
       ⟨"Tjes".toList, .variant .inflectedForm, "tje".toList⟩] := by
  obtain ⟨dictionary, h⟩ : ∃ dictionary,
      build collidingSource { suffixes := ["s".toList] } = .ok dictionary := ⟨_, rfl⟩
  obtain ⟨-, hentries, -, -, hnodup, -⟩ := build_keeps_first h
  refine ⟨dictionary, h, hentries, hnodup, ?_⟩
  cases h
  decide

end Dictionary
end Gloss
