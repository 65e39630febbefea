import Gloss.Proofs.Annotator.Treatment

/-! The first-occurrence rule for one text. -/
namespace Gloss.Annotator
open Text Markup
variable {annotator : Annotator}

theorem mem_definedKeys_iff {scope : Scope} {found : List (Match Nat)} {key : Text} :
    key ∈ annotator.definedKeys scope found ↔
      key ∉ scope.keys ∧ ∃ m ∈ found, annotator.countedKey? m = some key := by
  rw [← List.count_pos_iff, count_definedKeys]
  split_ifs with h
  · exact iff_of_true Nat.one_pos h
  · exact iff_of_false (Nat.lt_irrefl 0) h

theorem definedKeys_nodup (scope : Scope) (found : List (Match Nat)) :
    (annotator.definedKeys scope found).Nodup := by
  rw [List.nodup_iff_count_le_one]
  intro key
  rw [count_definedKeys]
  split_ifs
  · exact Nat.le_refl 1
  · exact Nat.zero_le 1

theorem size_extend_definedKeys (scope : Scope) (found : List (Match Nat)) :
    (scope.extend (annotator.definedKeys scope found)).size =
      scope.size + (annotator.definedKeys scope found).length :=
  Scope.size_extend (fun _ hkey => (mem_definedKeys_iff.mp hkey).1) (definedKeys_nodup scope found)

theorem length_definedKeys_add_countP_le (scope : Scope) (found : List (Match Nat)) :
    (annotator.definedKeys scope found).length + found.countP annotator.refers ≤ found.length := by
  rw [← countP_outcomes scope, ← length_outcomes scope, definedKeys]
  induction annotator.outcomes scope found with
  | nil => exact Nat.le_refl 0
  | cons outcome rest ih =>
    cases outcome <;>
      simp only [List.filterMap_cons, Outcome.definedKey?, List.countP_cons, Outcome.isReference,
        List.length_cons, Bool.false_eq_true, if_true, if_false] <;> omega

/-- In a text every match is treated by what stands before it, and in one way. A variant that is
short beside its term becomes a cross-reference; any other match is defined if its key is neither in
the scope nor that of an earlier match that is not redirected; and all else stays. The scope gains
the keys of the matches that are not redirected. -/
theorem annotateWithin_first_occurrence {source : Source} {rules : InflectionRules}
    {dictionary : Dictionary} (hbuild : Dictionary.build source rules = .ok dictionary)
    (h : annotator.Made dictionary) (scope : Scope) (text : Text) :
    let found := annotator.find text
    let annotated := annotator.annotateWithin scope text
    (∀ outcomes html, annotator.Treated scope text outcomes html ↔
      outcomes = annotator.outcomes scope found ∧ html = annotated.html) ∧
    (∀ key, annotated.scope.contains key = true ↔
      scope.contains key = true ∨ ∃ m ∈ found, annotator.Counts m key) ∧
    annotated.tally.matched = found.length ∧
    annotated.scope.size = scope.size + annotated.tally.defined ∧
    annotated.tally.redirected =
      (annotator.outcomes scope found).countP Outcome.isReference ∧
    annotated.tally.defined + annotated.tally.redirected ≤ annotated.tally.matched := by
  intro found annotated
  have hscope : annotated.scope = scope.extend (annotator.definedKeys scope found) :=
    scope_annotateWithin scope text
  have htally : annotated.tally = ⟨found.length, (annotator.definedKeys scope found).length,
      found.countP annotator.refers⟩ := tally_annotateWithin scope text
  refine ⟨fun outcomes html => treated_iff hbuild h scope text, ?_, ?_, ?_, ?_, ?_⟩
  · intro key
    simp only [hscope, Scope.contains_iff, Scope.mem_extend_iff, mem_definedKeys_iff,
      countedKey?_eq_some_iff (Made.keys_nodup hbuild h)]
    by_cases hkey : key ∈ scope.keys
    · simp only [hkey, or_true, true_or]
    · simp only [hkey, not_false_eq_true, true_and, or_false, false_or]
  · rw [htally]
  · rw [hscope, htally, size_extend_definedKeys]
  · rw [htally, countP_outcomes]
  · rw [htally]
    exact length_definedKeys_add_countP_le scope found

def researchSource : Source where
  definitions :=
    [{ id := some "rd".toList, term := some "R&D-werk".toList,
       definition := some "onderzoek".toList },
     { term := some "Proef".toList, definition := some "test".toList }]
  alternativeSpellings := [{ text := some "R&D".toList, refersTo := some "rd".toList }]
  alternativeTerms := [{ text := some "speurwerk".toList, refersTo := some "rd".toList }]

/-- The cross-reference comes first and uses nothing up; the other name gets the definition. -/
theorem annotateWithin_first_occurrence_research : ∃ dictionary term,
    Dictionary.build researchSource { enabled := false } = .ok dictionary ∧
    dictionary.terms[0]? = some term ∧
    (withDefaults dictionary).Made dictionary ∧
    (withDefaults dictionary).Treated { keys := ["proef".toList] }
      "R&D: speurwerk, proef R&D-WERK".toList
      [.reference term, .definition term (.variant .alternativeTerm), .literal, .literal]
      (["<span class=\"aiv-definition-ref\"", " title=\"Verwijst naar: R&amp;D-werk\"",
        " data-term=\"R&amp;D-werk\">R&D</span>", ": <span class=\"aiv-definition\">speurwerk",
        "<span class=\"aiv-definition-text\">", "<span class=\"aiv-definition-variant\">",
        "Alternatieve term voor R&amp;D-werk</span>", "<span class=\"aiv-definition-body\">",
        "onderzoek</span></span></span>", ", proef R&D-WERK"].flatMap String.toList) ∧
    ((withDefaults dictionary).annotateWithin { keys := ["proef".toList] }
      "R&D: speurwerk, proef R&D-WERK".toList).tally = ⟨4, 1, 1⟩ ∧
    ∀ key, ((withDefaults dictionary).annotateWithin { keys := ["proef".toList] }
      "R&D: speurwerk, proef R&D-WERK".toList).scope.contains key = true ↔
        key = "proef".toList ∨ ∃ m ∈ (withDefaults dictionary).find
          "R&D: speurwerk, proef R&D-WERK".toList, (withDefaults dictionary).Counts m key := by
  obtain ⟨dictionary, hbuild⟩ : ∃ dictionary,
      Dictionary.build researchSource { enabled := false } = .ok dictionary := ⟨_, rfl⟩
  have hmade : (withDefaults dictionary).Made dictionary := .inr rfl
  obtain ⟨htreated, hscope, -⟩ := annotateWithin_first_occurrence hbuild hmade
    { keys := ["proef".toList] } "R&D: speurwerk, proef R&D-WERK".toList
  obtain ⟨term, hterm⟩ : ∃ term, dictionary.terms[0]? = some term := by
    cases hbuild
    exact ⟨_, rfl⟩
  refine ⟨dictionary, term, hbuild, hterm, hmade, (htreated _ _).mpr ⟨?_, ?_⟩, ?_, fun key => ?_⟩
  · cases hbuild
    cases hterm
    decide +kernel
  · cases hbuild
    decide +kernel
  · cases hbuild
    decide +kernel
  · rw [hscope, Scope.contains_iff, List.mem_singleton]

end Gloss.Annotator
