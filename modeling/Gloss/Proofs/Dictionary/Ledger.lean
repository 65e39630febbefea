import Gloss.Dictionary.Log
import Gloss.Proofs.Dictionary.Reordering
import Mathlib.Algebra.GroupWithZero.Nat

/-! What becomes of every submission. It is registered, or dropped with one event in the log; which
of the two, and which event, is told by the terms and by the entries registered before it. -/
namespace Gloss.Dictionary
open Text

def Linked.toVariant (linked : Linked) : Variant :=
  ⟨linked.text.trim, linked.canonical, linked.kind⟩

/-- A submission with a text, linked to its term. A declared variant refers to the identifier of its
term, up to white space around it. -/
inductive Submission.Asks (terms : List Term) : Submission → Linked → Prop where
  | declared {kind : VariantKind} {variant : DeclaredVariant} {text : Text} {term : Term}
      (htext : variant.text = some text) (hterm : term ∈ terms)
      (hrefers : variant.refersTo.map trim = some term.id) :
      Asks terms (.declared kind variant) ⟨kind, text, term.key, false⟩
  | inflected {canonical text : Text} {generated : Bool} :
      Asks terms (.inflected canonical text generated) ⟨.inflectedForm, text, canonical, generated⟩

/-- The submission is registered as this variant: its text is not blank, and no entry before it has
the same case fold. -/
structure Submission.Registers (terms : List Term) (before : List Entry) (submission : Submission)
    (variant : Variant) : Prop where
  asks : ∃ linked, submission.Asks terms linked ∧ linked.toVariant = variant
  sound : variant.text ≠ []
  free : ∀ entry ∈ before, foldCase entry.text ≠ foldCase variant.text

/-- The event for a submission that is dropped. The existing entry is the one before it with the
same case fold. -/
inductive Submission.Logged (terms : List Term) (before : List Entry) :
    Submission → LogEvent → Prop where
  | missingText {kind : VariantKind} {variant : DeclaredVariant} (htext : variant.text = none) :
      Logged terms before (.declared kind variant)
        { level := .warn, message := "variant_missing_text"
          fields := [("kind", kind.label)], refersTo := some variant.refersTo }
  | unresolved {kind : VariantKind} {variant : DeclaredVariant} {text : Text}
      (htext : variant.text = some text)
      (hrefers : ∀ term ∈ terms, variant.refersTo.map trim ≠ some term.id) :
      Logged terms before (.declared kind variant)
        { level := .warn, message := "variant_reference_unresolved"
          fields := [("text", text), ("kind", kind.label)], refersTo := some variant.refersTo }
  | blank {submission : Submission} {linked : Linked} (hasks : submission.Asks terms linked)
      (hblank : linked.text.trim = []) :
      Logged terms before submission
        { level := .warn, message := "variant_blank_dropped"
          fields := [("canonical", linked.canonical), ("kind", linked.kind.label)] }
  | alreadyRegistered {submission : Submission} {linked : Linked} {existing : Entry}
      (hasks : submission.Asks terms linked) (hsound : linked.text.trim ≠ [])
      (hexisting : existing ∈ before)
      (hfold : foldCase existing.text = foldCase linked.text.trim)
      (hgenerated : linked.generated = true) (hown : existing.canonicalKey = linked.canonical) :
      Logged terms before submission
        { level := .debug, message := "generated_form_already_registered"
          fields := [("text", linked.text.trim), ("canonical", linked.canonical)] }
  | collision {submission : Submission} {linked : Linked} {existing : Entry}
      (hasks : submission.Asks terms linked) (hsound : linked.text.trim ≠ [])
      (hexisting : existing ∈ before)
      (hfold : foldCase existing.text = foldCase linked.text.trim)
      (hother : ¬ (linked.generated = true ∧ existing.canonicalKey = linked.canonical)) :
      Logged terms before submission
        { level := .warn, message := "variant_collision_dropped"
          fields :=
            [("text", linked.text.trim), ("kind", linked.kind.label),
             ("canonical", linked.canonical), ("existing", existing.text),
             ("existing_canonical", existing.canonicalKey)] }

/-- The variants and the log that submissions lead to, one after another, from the entries
registered before them. -/
inductive Ledger (terms : List Term) :
    List Entry → List Submission → List Variant → List LogEvent → Prop where
  | nil {before : List Entry} : Ledger terms before [] [] []
  | register {before : List Entry} {submission : Submission} {rest : List Submission}
      {variant : Variant} {variants : List Variant} {log : List LogEvent}
      (hfirst : submission.Registers terms before variant)
      (hrest : Ledger terms (before ++ [.variant variant]) rest variants log) :
      Ledger terms before (submission :: rest) (variant :: variants) log
  | drop {before : List Entry} {submission : Submission} {rest : List Submission}
      {event : LogEvent} {variants : List Variant} {log : List LogEvent}
      (hfirst : submission.Logged terms before event)
      (hrest : Ledger terms before rest variants log) :
      Ledger terms before (submission :: rest) variants (event :: log)

/-- Each submission is registered or logged, and never both. -/
theorem Ledger.length_add_length {terms : List Term} {before : List Entry}
    {submitted : List Submission} {variants : List Variant} {log : List LogEvent}
    (h : Ledger terms before submitted variants log) :
    variants.length + log.length = submitted.length := by
  induction h with
  | nil => rfl
  | register _ _ ih =>
    rw [List.length_cons, List.length_cons, ← ih]
    omega
  | drop _ _ ih =>
    rw [List.length_cons, List.length_cons, ← ih]
    omega

section Linking
variable {terms : List Term}

theorem find?_referent_eq_some_iff (hids : (terms.map Term.id).Nodup) {refersTo : Option Text}
    {term : Term} :
    refersTo.bind (fun id => terms.find? (·.id == id.trim)) = some term ↔
      term ∈ terms ∧ refersTo.map trim = some term.id := by
  cases refersTo with
  | none => simp
  | some id =>
    rw [Option.bind_some, find?_eq_some_iff_of_nodup Term.id hids, Option.map_some,
      Option.some.injEq, @eq_comm _ term.id]

theorem find?_referent_eq_none_iff (hids : (terms.map Term.id).Nodup) {refersTo : Option Text} :
    refersTo.bind (fun id => terms.find? (·.id == id.trim)) = none ↔
      ∀ term ∈ terms, refersTo.map trim ≠ some term.id := by
  rw [Option.eq_none_iff_forall_ne_some]
  simp only [ne_eq, find?_referent_eq_some_iff hids, not_and]

theorem Submission.link_eq_ok_iff (hids : (terms.map Term.id).Nodup) {submission : Submission}
    {linked : Linked} : submission.link terms = .ok linked ↔ submission.Asks terms linked := by
  constructor
  · intro h
    unfold Submission.link at h
    split at h
    · cases h
      exact .inflected
    · split at h
      · cases h
      · next htext =>
        split at h
        · cases h
        · next hterm =>
          cases h
          obtain ⟨hmem, hrefers⟩ := (find?_referent_eq_some_iff hids).mp hterm
          exact .declared htext hmem hrefers
  · rintro (⟨htext, hterm, hrefers⟩ | _)
    · have hfind := (find?_referent_eq_some_iff hids).mpr ⟨hterm, hrefers⟩
      simp only [Submission.link, htext, hfind]
    · rfl

end Linking

section Registry
variable {registry : Registry} {before : List Entry}

/-- The registry has every entry registered so far under its case fold, and nothing else. -/
def Registry.Holds (registry : Registry) (before : List Entry) : Prop :=
  ∀ x entry, registry.lookup x = some entry ↔ entry ∈ before ∧ foldCase entry.text = x

namespace Registry.Holds

theorem lookup_eq_none_iff (h : registry.Holds before) {x : Text} :
    registry.lookup x = none ↔ ∀ entry ∈ before, foldCase entry.text ≠ x := by
  rw [Option.eq_none_iff_forall_ne_some]
  simp only [ne_eq, h x, not_and]

theorem cons (h : registry.Holds before) (entry : Entry)
    (hfree : ∀ other ∈ before, foldCase other.text ≠ foldCase entry.text) :
    Registry.Holds ((foldCase entry.text, entry) :: registry) (before ++ [entry]) := by
  intro x other
  rw [List.lookup_cons, List.mem_append, List.mem_singleton]
  by_cases hx : x = foldCase entry.text
  · subst hx
    simp only [beq_self_eq_true, Option.some.injEq]
    constructor
    · rintro rfl
      exact ⟨.inr rfl, rfl⟩
    · rintro ⟨hold | rfl, hfold⟩
      · exact absurd hfold (hfree other hold)
      · rfl
  · simp only [beq_false_of_ne hx, h x other]
    constructor
    · rintro ⟨hold, hfold⟩
      exact ⟨.inl hold, hfold⟩
    · rintro ⟨hold | rfl, hfold⟩
      · exact ⟨hold, hfold⟩
      · exact absurd hfold.symm hx

end Registry.Holds

private theorem lookup_terms (terms : List Term) (x : Text) :
    List.lookup x (terms.map fun term => (term.key, Entry.term term)) =
      (terms.find? (·.key == x)).map .term := by
  induction terms with
  | nil => rfl
  | cons term terms ih =>
    rw [List.map_cons, List.lookup_cons, List.find?_cons, ih, Bool.beq_comm]
    cases term.key == x <;> rfl

theorem holds_terms {terms : List Term} (hkeys : (terms.map Term.key).Nodup)
    (hnames : ∀ term ∈ terms, term.key = foldCase term.name) :
    Registry.Holds (terms.map fun term => (term.key, .term term)) (terms.map .term) := by
  intro x entry
  rw [lookup_terms, Option.map_eq_some_iff, List.mem_map]
  simp only [find?_eq_some_iff_of_nodup Term.key hkeys]
  constructor
  · rintro ⟨term, ⟨hterm, rfl⟩, rfl⟩
    exact ⟨⟨term, hterm, rfl⟩, (hnames term hterm).symm⟩
  · rintro ⟨⟨term, hterm, rfl⟩, rfl⟩
    exact ⟨term, ⟨hterm, hnames term hterm⟩, rfl⟩

end Registry

section Step
variable {terms : List Term} {registry : Registry} {before : List Entry} {submission : Submission}

theorem Linked.variant_of_blank {linked : Linked} (hblank : linked.text.trim = []) :
    linked.variant registry = .error (.blank linked.kind linked.canonical) := by
  rw [Linked.variant, hblank]

theorem Linked.variant_of_free {linked : Linked} (hsound : linked.text.trim ≠ [])
    (hfree : registry.lookup (foldCase linked.text.trim) = none) :
    linked.variant registry = .ok linked.toVariant := by
  apply Linked.variant_eq_ok_iff.mpr
  rw [nonBlank?_eq_some_iff.mpr ⟨rfl, hsound⟩]
  exact ⟨rfl, hfree⟩

theorem Linked.variant_of_taken {linked : Linked} {existing : Entry}
    (hsound : linked.text.trim ≠ [])
    (hexisting : registry.lookup (foldCase linked.text.trim) = some existing) :
    linked.variant registry = .error
      (if linked.generated = true ∧ existing.canonicalKey = linked.canonical then
        .alreadyRegistered linked.text.trim linked.canonical
      else
        .collision linked.kind linked.text.trim linked.canonical existing.text
          existing.canonicalKey) := by
  unfold Linked.variant
  split
  · next hblank => exact absurd hblank hsound
  · simp only [hexisting, Bool.and_eq_true, beq_iff_eq]
    split_ifs <;> rfl

theorem Submission.registers_iff (hids : (terms.map Term.id).Nodup) (h : registry.Holds before)
    {variant : Variant} :
    submission.Registers terms before variant ↔
      (submission.link terms).bind (Linked.variant registry) = .ok variant := by
  constructor
  · rintro ⟨⟨linked, hasks, rfl⟩, hsound, hfree⟩
    rw [(link_eq_ok_iff hids).mpr hasks]
    exact Linked.variant_of_free hsound (h.lookup_eq_none_iff.mpr hfree)
  · intro hstep
    cases hlink : submission.link terms with
    | error drop =>
      rw [hlink] at hstep
      cases hstep
    | ok linked =>
      rw [hlink] at hstep
      obtain ⟨hasked, hfree⟩ := Linked.variant_eq_ok_iff.mp hstep
      obtain ⟨text, htext, rfl⟩ := Option.map_eq_some_iff.mp hasked
      obtain ⟨rfl, hsound⟩ := nonBlank?_eq_some_iff.mp htext
      exact ⟨⟨linked, (link_eq_ok_iff hids).mp hlink, rfl⟩, hsound,
        h.lookup_eq_none_iff.mp hfree⟩

private theorem Submission.logged_of_link (hids : (terms.map Term.id).Nodup) {drop : Drop}
    (hlink : submission.link terms = .error drop) :
    submission.Logged terms before drop.logEvent := by
  unfold Submission.link at hlink
  split at hlink
  · cases hlink
  · split at hlink
    · next htext =>
      cases hlink
      exact .missingText htext
    · next htext =>
      split at hlink
      · next hterm =>
        cases hlink
        exact .unresolved htext ((find?_referent_eq_none_iff hids).mp hterm)
      · cases hlink

private theorem Submission.logged_of_variant (h : registry.Holds before) {linked : Linked}
    (hasks : submission.Asks terms linked) {drop : Drop}
    (hdrop : linked.variant registry = .error drop) :
    submission.Logged terms before drop.logEvent := by
  by_cases hblank : linked.text.trim = []
  · rw [Linked.variant_of_blank hblank] at hdrop
    cases hdrop
    exact .blank hasks hblank
  · cases hlookup : registry.lookup (foldCase linked.text.trim) with
    | none =>
      rw [Linked.variant_of_free hblank hlookup] at hdrop
      cases hdrop
    | some existing =>
      obtain ⟨hexisting, hfold⟩ := (h _ _).mp hlookup
      rw [Linked.variant_of_taken hblank hlookup] at hdrop
      cases hdrop
      split_ifs with hown
      · exact .alreadyRegistered hasks hblank hexisting hfold hown.1 hown.2
      · exact .collision hasks hblank hexisting hfold hown

/-- A submission is dropped as the log says. -/
theorem Submission.logged_iff (hids : (terms.map Term.id).Nodup) (h : registry.Holds before)
    {event : LogEvent} :
    submission.Logged terms before event ↔
      ∃ drop, (submission.link terms).bind (Linked.variant registry) = .error drop ∧
        drop.logEvent = event := by
  constructor
  · intro hlogged
    cases hlogged with
    | missingText htext => exact ⟨_, by simp only [link, htext]; rfl, rfl⟩
    | unresolved htext hrefers =>
      have hfind := (find?_referent_eq_none_iff hids).mpr hrefers
      exact ⟨_, by simp only [link, htext, hfind]; rfl, rfl⟩
    | blank hasks hblank =>
      rw [(link_eq_ok_iff hids).mpr hasks]
      exact ⟨_, Linked.variant_of_blank hblank, rfl⟩
    | alreadyRegistered hasks hsound hexisting hfold hgenerated hown =>
      rw [(link_eq_ok_iff hids).mpr hasks]
      refine ⟨_, Linked.variant_of_taken hsound ((h _ _).mpr ⟨hexisting, hfold⟩), ?_⟩
      rw [if_pos ⟨hgenerated, hown⟩]
      rfl
    | collision hasks hsound hexisting hfold hother =>
      rw [(link_eq_ok_iff hids).mpr hasks]
      refine ⟨_, Linked.variant_of_taken hsound ((h _ _).mpr ⟨hexisting, hfold⟩), ?_⟩
      rw [if_neg hother]
      rfl
  · rintro ⟨drop, hstep, rfl⟩
    cases hlink : submission.link terms with
    | error fault =>
      rw [hlink] at hstep
      cases hstep
      exact logged_of_link hids hlink
    | ok linked =>
      rw [hlink] at hstep
      exact logged_of_variant h ((link_eq_ok_iff hids).mp hlink) hstep

end Step

section Run
variable {terms : List Term}

/-- Registering submissions writes their ledger. -/
theorem ledger_iff (hids : (terms.map Term.id).Nodup) {registry : Registry} {before : List Entry}
    (h : registry.Holds before) {submitted : List Submission} {variants : List Variant}
    {log : List LogEvent} :
    Ledger terms before submitted variants log ↔
      (registerAll terms registry submitted).1 = variants ∧
        (registerAll terms registry submitted).2.2.map Drop.logEvent = log := by
  -- On the submissions; each one registered is new to the registry, which goes on holding it.
  induction submitted generalizing registry before variants log with
  | nil =>
    constructor
    · rintro ⟨⟩
      exact ⟨rfl, rfl⟩
    · rintro ⟨rfl, rfl⟩
      exact .nil
  | cons submission rest ih =>
    cases hstep : (submission.link terms).bind (Linked.variant registry) with
    | error drop =>
      simp only [registerAll, hstep, List.map_cons]
      constructor
      · rintro (_ | ⟨hfirst, hrest⟩ | ⟨hfirst, hrest⟩)
        · cases hstep.symm.trans ((Submission.registers_iff hids h).mp hfirst)
        · obtain ⟨drop', hdrop, rfl⟩ := (Submission.logged_iff hids h).mp hfirst
          cases hstep.symm.trans hdrop
          obtain ⟨rfl, rfl⟩ := (ih h).mp hrest
          exact ⟨rfl, rfl⟩
      · rintro ⟨rfl, rfl⟩
        exact .drop ((Submission.logged_iff hids h).mpr ⟨drop, hstep, rfl⟩)
          ((ih h).mpr ⟨rfl, rfl⟩)
    | ok variant =>
      have hfirst := (Submission.registers_iff hids h).mpr hstep
      have hholds := h.cons (.variant variant) hfirst.free
      simp only [registerAll, hstep]
      constructor
      · rintro (_ | ⟨hother, hrest⟩ | ⟨hlogged, hrest⟩)
        · cases hstep.symm.trans ((Submission.registers_iff hids h).mp hother)
          obtain ⟨rfl, rfl⟩ := (ih hholds).mp hrest
          exact ⟨rfl, rfl⟩
        · obtain ⟨drop, hdrop, -⟩ := (Submission.logged_iff hids h).mp hlogged
          cases hstep.symm.trans hdrop
      · rintro ⟨rfl, rfl⟩
        exact .register hfirst ((ih hholds).mpr ⟨rfl, rfl⟩)

end Run

section Build
variable {source : Source} {rules : InflectionRules} {dictionary : Dictionary}

/-- The variants and the log of a build are those of the one ledger of its submissions. -/
theorem ledger_of_build (h : build source rules = .ok dictionary) {variants : List Variant}
    {log : List LogEvent} :
    Ledger dictionary.terms (dictionary.terms.map .term)
        (submissions source rules dictionary.terms) variants log ↔
      variants = dictionary.variants ∧ log = dictionary.log := by
  have hholds := holds_terms (keys_nodup_of_build h) fun _ hterm => key_of_build h hterm
  rw [ledger_iff (ids_nodup_of_build h) hholds, (build_eq_ok_iff.mp h).2.2, @eq_comm _ variants,
    @eq_comm _ log, Dictionary.log]

theorem length_submissions {terms : List Term}
    (hgives : List.Forall₂ Gives source.definitions terms) :
    (submissions source rules terms).length =
      source.alternativeSpellings.length + source.alternativeTerms.length +
        (source.definitions.map (·.inflections.length)).sum +
        (terms.map fun term => (rules.forms term.name).length).sum := by
  have hzip : (source.definitions.zip terms).map Prod.fst = source.definitions :=
    List.map_fst_zip hgives.length_eq.le
  have hdeclared : ((source.definitions.zip terms).map (·.1.inflections.length)).sum =
      (source.definitions.map (·.inflections.length)).sum := by
    conv_rhs => rw [← hzip, List.map_map]
    rfl
  simp only [submissions, List.length_append, List.length_map, List.length_flatMap, hdeclared]

theorem sum_length_forms (rules : InflectionRules) (terms : List Term) :
    (terms.map fun term => (rules.forms term.name).length).sum =
      if rules.enabled then (terms.map fun term => (rules.forms term.name).length).sum else 0 := by
  by_cases henabled : rules.enabled
  · rw [if_pos henabled]
  · simp [InflectionRules.forms, henabled]

/-- Every submission of a build that succeeds is registered, or counted as dropped once and logged
once. The ledger tells which, and with which event. -/
theorem build_accounts_for_submissions (h : build source rules = .ok dictionary) :
    dictionary.stats.terms = source.definitions.length ∧
    dictionary.stats.variants + dictionary.stats.dropped =
      source.alternativeSpellings.length + source.alternativeTerms.length +
        (source.definitions.map (·.inflections.length)).sum +
        (if rules.enabled then
          (dictionary.terms.map fun term => (rules.forms term.name).length).sum
        else 0) ∧
    dictionary.log.length = dictionary.stats.dropped ∧
    ∀ variants log,
      Ledger dictionary.terms (dictionary.terms.map .term)
          (submissions source rules dictionary.terms) variants log ↔
        variants = dictionary.variants ∧ log = dictionary.log := by
  have hgives := gives_of_build h
  have hledger := (ledger_of_build h).mpr ⟨rfl, rfl⟩
  have hlog : dictionary.log.length = dictionary.dropped := by
    rw [Dictionary.log, List.length_map, length_drops_of_build h]
  refine ⟨hgives.length_eq.symm, ?_, hlog, fun _ _ => ledger_of_build h⟩
  calc dictionary.variants.length + dictionary.dropped
      = (submissions source rules dictionary.terms).length := by
        rw [← hlog, hledger.length_add_length]
    _ = _ := by
        rw [length_submissions hgives]
        exact congrArg _ (sum_length_forms rules dictionary.terms)

def droppingSource : Source where
  definitions :=
    [{ term := some "Kat".toList, definition := some "dier".toList,
       inflections := [" katten ".toList] },
     { term := some "Kats".toList, definition := some "klank".toList }]
  alternativeSpellings :=
    [{ refersTo := some "kat".toList },
     { text := some "poes".toList, refersTo := some "hond".toList },
     { text := some " ".toList, refersTo := some " kat".toList }]
  alternativeTerms := [{ text := some "KAT".toList, refersTo := some "kats".toList }]

theorem build_accounts_for_submissions_dropping : ∃ dictionary,
    build droppingSource { suffixes := ["s".toList] } = .ok dictionary ∧
    dictionary.stats = ⟨2, 2, 6⟩ ∧
    dictionary.stats.variants + dictionary.stats.dropped = 3 + 1 + 1 + 3 ∧
    dictionary.log.length = 6 ∧
    dictionary.log.map LogEvent.message =
      ["variant_missing_text", "variant_reference_unresolved", "variant_blank_dropped",
       "variant_collision_dropped", "variant_collision_dropped",
       "generated_form_already_registered"] ∧
    dictionary.log.filterMap LogEvent.refersTo = [some "kat".toList, some "hond".toList] ∧
    Ledger dictionary.terms (dictionary.terms.map .term)
      (submissions droppingSource { suffixes := ["s".toList] } dictionary.terms)
      dictionary.variants dictionary.log := by
  obtain ⟨dictionary, h⟩ : ∃ dictionary,
      build droppingSource { suffixes := ["s".toList] } = .ok dictionary := ⟨_, rfl⟩
  obtain ⟨-, hcount, hlog, hledger⟩ := build_accounts_for_submissions h
  have hstats : dictionary.stats = ⟨2, 2, 6⟩ := by
    cases h
    decide
  refine ⟨dictionary, h, hstats, ?_, ?_, ?_, ?_, (hledger _ _).mpr ⟨rfl, rfl⟩⟩
  · rw [hcount]
    cases h
    decide
  · rw [hlog, hstats]
  · cases h
    rfl
  · cases h
    rfl

end Build
end Gloss.Dictionary
