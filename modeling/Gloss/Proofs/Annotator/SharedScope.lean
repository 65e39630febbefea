import Gloss.Proofs.Annotator.FirstOccurrence
import Mathlib.Algebra.GroupWithZero.Nat
import Mathlib.Data.List.Perm.Basic

/-! Texts that share a scope. They are annotated one after another, and what becomes of all their
matches is what becomes of them in one list. -/
namespace Gloss.Annotator
open Text

section Runs
variable (annotator : Annotator)

/-- Texts annotated one after another, each with the scope that it finds. -/
def passes (scope : Scope) : List Text → List (Scope × Text)
  | [] => []
  | text :: rest => (scope, text) :: passes (annotator.annotateWithin scope text).scope rest

def annotateEach (scope : Scope) (texts : List Text) : List Annotated :=
  (annotator.passes scope texts).map fun (start, text) => annotator.annotateWithin start text

def scopeBehind (scope : Scope) (texts : List Text) : Scope :=
  texts.foldl (fun start text => (annotator.annotateWithin start text).scope) scope

def outcomesIn (scope : Scope) (texts : List Text) : List Outcome :=
  (annotator.passes scope texts).flatMap fun (start, text) =>
    annotator.outcomes start (annotator.find text)

def definedIn (scope : Scope) (texts : List Text) : List Text :=
  (annotator.outcomesIn scope texts).filterMap Outcome.definedKey?

def total (counter : Tally → Nat) (scope : Scope) (texts : List Text) : Nat :=
  ((annotator.annotateEach scope texts).map fun annotated => counter annotated.tally).sum

end Runs

variable {annotator : Annotator}

theorem outcomesIn_cons (scope : Scope) (text : Text) (rest : List Text) :
    annotator.outcomesIn scope (text :: rest) = annotator.outcomes scope (annotator.find text) ++
      annotator.outcomesIn (annotator.annotateWithin scope text).scope rest :=
  rfl

theorem total_cons (counter : Tally → Nat) (scope : Scope) (text : Text) (rest : List Text) :
    annotator.total counter scope (text :: rest) =
      counter (annotator.annotateWithin scope text).tally +
        annotator.total counter (annotator.annotateWithin scope text).scope rest :=
  List.sum_cons

/-- A run treats the matches of all its texts as one list. -/
theorem outcomesIn_eq (scope : Scope) (texts : List Text) :
    annotator.outcomesIn scope texts = annotator.outcomes scope (texts.flatMap annotator.find) := by
  induction texts generalizing scope with
  | nil => rfl
  | cons text rest ih =>
    rw [outcomesIn_cons, ih, scope_annotateWithin, List.flatMap_cons, outcomes_append]

theorem definedIn_eq (scope : Scope) (texts : List Text) :
    annotator.definedIn scope texts =
      annotator.definedKeys scope (texts.flatMap annotator.find) := by
  rw [definedIn, outcomesIn_eq, definedKeys]

theorem scopeBehind_eq (scope : Scope) (texts : List Text) :
    annotator.scopeBehind scope texts = scope.extend (annotator.definedIn scope texts) := by
  induction texts generalizing scope with
  | nil => rfl
  | cons text rest ih =>
    have hrest := ih (annotator.annotateWithin scope text).scope
    rw [definedIn_eq, scope_annotateWithin, Scope.extend_extend] at hrest
    rw [definedIn_eq, List.flatMap_cons, definedKeys_append, ← hrest, ← scope_annotateWithin]
    rfl

theorem total_defined (scope : Scope) (texts : List Text) :
    annotator.total Tally.defined scope texts = (annotator.definedIn scope texts).length := by
  induction texts generalizing scope with
  | nil => rfl
  | cons text rest ih =>
    rw [total_cons, ih, tally_annotateWithin, definedIn, definedIn, outcomesIn_cons,
      List.filterMap_append, List.length_append, definedKeys]

theorem total_redirected (scope : Scope) (texts : List Text) :
    annotator.total Tally.redirected scope texts =
      (annotator.outcomesIn scope texts).countP Outcome.isReference := by
  induction texts generalizing scope with
  | nil => rfl
  | cons text rest ih =>
    rw [total_cons, ih, tally_annotateWithin, outcomesIn_cons, List.countP_append,
      countP_outcomes]

theorem mem_definedIn_iff {scope : Scope} {texts : List Text} {key : Text} :
    key ∈ annotator.definedIn scope texts ↔ key ∉ scope.keys ∧
      ∃ text ∈ texts, ∃ m ∈ annotator.find text, annotator.countedKey? m = some key := by
  rw [definedIn_eq, mem_definedKeys_iff]
  simp only [List.mem_flatMap]
  constructor
  · rintro ⟨hnew, m, ⟨text, htext, hm⟩, hkey⟩
    exact ⟨hnew, text, htext, m, hm, hkey⟩
  · rintro ⟨hnew, text, htext, m, hm, hkey⟩
    exact ⟨hnew, m, ⟨text, htext, hm⟩, hkey⟩

theorem definedIn_nodup (scope : Scope) (texts : List Text) :
    (annotator.definedIn scope texts).Nodup := by
  rw [definedIn_eq]
  exact definedKeys_nodup scope _

theorem contains_scopeBehind_iff {scope : Scope} {texts : List Text} {key : Text} :
    (annotator.scopeBehind scope texts).contains key = true ↔
      scope.contains key = true ∨ key ∈ annotator.definedIn scope texts := by
  rw [scopeBehind_eq, Scope.contains_iff, Scope.contains_iff, Scope.mem_extend_iff, or_comm]

/-- In which order texts come changes where a term is defined, but not which terms are. -/
theorem definedIn_perm {texts other : List Text} (h : texts.Perm other) (scope : Scope) :
    (annotator.definedIn scope texts).Perm (annotator.definedIn scope other) := by
  rw [List.perm_ext_iff_of_nodup (definedIn_nodup scope texts) (definedIn_nodup scope other)]
  intro key
  rw [mem_definedIn_iff, mem_definedIn_iff]
  simp only [h.mem_iff]

theorem countP_outcomesIn_perm {texts other : List Text} (h : texts.Perm other) (scope : Scope) :
    (annotator.outcomesIn scope texts).countP Outcome.isReference =
      (annotator.outcomesIn scope other).countP Outcome.isReference := by
  rw [outcomesIn_eq, outcomesIn_eq, countP_outcomes, countP_outcomes]
  exact (h.flatMap_right annotator.find).countP_eq annotator.refers

/-- What is defined behind a run is in the scope, so that the same texts define nothing more. -/
theorem definedIn_scopeBehind (scope : Scope) (texts : List Text) :
    annotator.definedIn (annotator.scopeBehind scope texts) texts = [] := by
  rw [List.eq_nil_iff_forall_not_mem]
  intro key hkey
  obtain ⟨hnew, hfound⟩ := mem_definedIn_iff.mp hkey
  rw [scopeBehind_eq, Scope.mem_extend_iff, not_or] at hnew
  exact hnew.1 (mem_definedIn_iff.mpr ⟨hnew.2, hfound⟩)

/-- Texts that share a scope, one after another. Every text is treated within the scope that the
texts before it leave. Among all outcomes a key is defined once when it is not in the scope and some
text has a match for it that is not redirected, and else never; the scope gains these keys. The
order of the texts does not count, and a second run over them defines nothing. -/
theorem annotateEach_shared_scope {source : Source} {rules : InflectionRules}
    {dictionary : Dictionary} (hbuild : Dictionary.build source rules = .ok dictionary)
    (h : annotator.Made dictionary) (scope : Scope) (texts : List Text) :
    let defined := annotator.definedIn scope texts
    let final := annotator.scopeBehind scope texts
    (∀ pass ∈ annotator.passes scope texts,
      annotator.Treated pass.1 pass.2 (annotator.outcomes pass.1 (annotator.find pass.2))
        (annotator.annotateWithin pass.1 pass.2).html) ∧
    (∀ key, defined.count key ≤ 1 ∧
      (defined.count key = 1 ↔ scope.contains key = false ∧
        ∃ text ∈ texts, ∃ m ∈ annotator.find text, annotator.Counts m key)) ∧
    (∀ key, final.contains key = true ↔ scope.contains key = true ∨ key ∈ defined) ∧
    annotator.total Tally.defined scope texts = defined.length ∧
    annotator.total Tally.redirected scope texts =
      (annotator.outcomesIn scope texts).countP Outcome.isReference ∧
    (∀ other, texts.Perm other →
      (annotator.definedIn scope other).Perm defined ∧
      (∀ key, (annotator.scopeBehind scope other).contains key = final.contains key) ∧
      annotator.total Tally.defined scope other = annotator.total Tally.defined scope texts ∧
      annotator.total Tally.redirected scope other =
        annotator.total Tally.redirected scope texts) ∧
    annotator.definedIn final texts = [] ∧
    annotator.total Tally.defined final texts = 0 ∧
    annotator.scopeBehind final texts = final := by
  intro defined final
  have hnodup : defined.Nodup := definedIn_nodup scope texts
  have hagain : annotator.definedIn final texts = [] := definedIn_scopeBehind scope texts
  refine ⟨fun pass _ => (treated_iff hbuild h pass.1 pass.2).mpr ⟨rfl, rfl⟩, ?_,
    fun key => contains_scopeBehind_iff, total_defined scope texts, total_redirected scope texts, ?_,
    hagain, ?_, ?_⟩
  · intro key
    refine ⟨List.nodup_iff_count_le_one.mp hnodup key, ?_⟩
    have hmem : key ∈ defined ↔ scope.contains key = false ∧
        ∃ text ∈ texts, ∃ m ∈ annotator.find text, annotator.Counts m key := by
      simp only [← countedKey?_eq_some_iff (Made.keys_nodup hbuild h), ← Bool.not_eq_true,
        Scope.contains_iff]
      exact mem_definedIn_iff
    rw [← hmem]
    constructor
    · intro hone
      have hpos : 0 < defined.count key := by omega
      exact List.count_pos_iff.mp hpos
    · intro hmem
      exact List.count_eq_one_of_mem hnodup hmem
  · intro other hother
    have hdefined : defined.Perm (annotator.definedIn scope other) := definedIn_perm hother scope
    refine ⟨hdefined.symm, ?_, ?_, ?_⟩
    · intro key
      rw [Bool.eq_iff_iff, contains_scopeBehind_iff, contains_scopeBehind_iff, hdefined.mem_iff]
    · rw [total_defined, total_defined, hdefined.length_eq]
    · rw [total_redirected, total_redirected, countP_outcomesIn_perm hother]
  · rw [total_defined, hagain, List.length_nil]
  · rw [scopeBehind_eq, hagain, Scope.extend_nil]

/-- The first text has a cross-reference only, the second and the third have the term under two
names; in the other order the definition moves, and the scope behind the texts stays. -/
theorem annotateEach_shared_scope_research : ∃ dictionary,
    Dictionary.build researchSource { enabled := false } = .ok dictionary ∧
    (withDefaults dictionary).Made dictionary ∧
    (withDefaults dictionary).definedIn { keys := ["proef".toList] }
      ["R&D".toList, "speurwerk proef".toList, "r&d-werk R&D".toList] = ["r&d-werk".toList] ∧
    ((withDefaults dictionary).annotateEach { keys := ["proef".toList] }
      ["R&D".toList, "speurwerk proef".toList, "r&d-werk R&D".toList]).map Annotated.tally =
        [⟨1, 0, 1⟩, ⟨2, 1, 0⟩, ⟨2, 0, 1⟩] ∧
    ((withDefaults dictionary).annotateEach { keys := ["proef".toList] }
      ["r&d-werk R&D".toList, "speurwerk proef".toList, "R&D".toList]).map Annotated.tally =
        [⟨2, 1, 1⟩, ⟨2, 0, 0⟩, ⟨1, 0, 1⟩] ∧
    (withDefaults dictionary).total Tally.redirected { keys := ["proef".toList] }
        ["r&d-werk R&D".toList, "speurwerk proef".toList, "R&D".toList] =
      (withDefaults dictionary).total Tally.redirected { keys := ["proef".toList] }
        ["R&D".toList, "speurwerk proef".toList, "r&d-werk R&D".toList] ∧
    (∃ text ∈ ["R&D".toList, "speurwerk proef".toList, "r&d-werk R&D".toList],
      ∃ m ∈ (withDefaults dictionary).find text,
        (withDefaults dictionary).Counts m "r&d-werk".toList) := by
  obtain ⟨dictionary, hbuild⟩ : ∃ dictionary,
      Dictionary.build researchSource { enabled := false } = .ok dictionary := ⟨_, rfl⟩
  have hmade : (withDefaults dictionary).Made dictionary := .inr rfl
  obtain ⟨-, hcount, -, -, -, hperm, -⟩ := annotateEach_shared_scope hbuild hmade
    { keys := ["proef".toList] } ["R&D".toList, "speurwerk proef".toList, "r&d-werk R&D".toList]
  have hdefined : (withDefaults dictionary).definedIn { keys := ["proef".toList] }
      ["R&D".toList, "speurwerk proef".toList, "r&d-werk R&D".toList] = ["r&d-werk".toList] := by
    cases hbuild
    decide +kernel
  refine ⟨dictionary, hbuild, hmade, hdefined, ?_, ?_,
    (hperm _ (List.reverse_perm _).symm).2.2.2, ?_⟩
  · cases hbuild
    decide +kernel
  · cases hbuild
    decide +kernel
  · have hone := (hcount "r&d-werk".toList).2
    rw [hdefined] at hone
    exact (hone.mp (by decide)).2

end Gloss.Annotator
