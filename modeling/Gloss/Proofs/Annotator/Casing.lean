import Gloss.Proofs.Annotator.Layout

/-! Annotating a text in another case. The same entries are found at the same places, and what is
written between the copied characters does not depend on their case. -/
namespace Gloss
open Text

theorem PatternIndex.get?_of_foldCase {P : Type} (index : PatternIndex P) {s s' : Text}
    (h : foldCase s = foldCase s') : index.get? s = index.get? s' := by
  unfold get?
  rw [h]

namespace Annotator
variable {annotator : Annotator} {t u : Text} {found found' : List (Match Nat)}

theorem find_samePlace (h : SameButCase annotator.index.words t u) :
    List.Forall₂ (Match.SamePlace t u) (annotator.find t) (annotator.find u) := by
  rw [find, find, PatternIndex.resolve_find, PatternIndex.resolve_find]
  have hsearch := SameButCase.leftmostLongest_samePlace
    (fun _ _ => annotator.index.get?_of_foldCase) h (rfl : _ = annotator.index.words.isBoundary none)
    (rfl : ([] : Text).length = ([] : Text).length) (rfl : 0 = byteLength [])
  exact hsearch

theorem outcome_samePlace {m n : Match Nat} (h : m.SamePlace t u n) (seen : List Text) :
    annotator.outcome seen m = annotator.outcome seen n := by
  unfold outcome isRedirected meaning?
  rw [h.payload, h.length]

theorem outcomes_samePlace (h : List.Forall₂ (Match.SamePlace t u) found found') (scope : Scope) :
    annotator.outcomes scope found = annotator.outcomes scope found' := by
  induction h generalizing scope with
  | nil => rfl
  | @cons m n _ _ hm _ ih =>
    have hscope : (annotator.render scope m).scope = (annotator.render scope n).scope := by
      rw [render_eq, render_eq, outcome_samePlace hm]
    rw [outcomes_cons, outcomes_cons, outcome_samePlace hm, hscope, ih]

theorem layoutFrom_samePlace (h : List.Forall₂ (Match.SamePlace t u) found found')
    (hlength : t.length = u.length) (vocabulary : Vocabulary) (place : Nat)
    (outcomes : List Outcome) :
    layoutFrom vocabulary t place (found.zip outcomes) =
      layoutFrom vocabulary u place (found'.zip outcomes) := by
  induction h generalizing place outcomes with
  | nil => rw [List.zip_nil_left, layoutFrom, layoutFrom, hlength]
  | cons hm _ ih =>
    cases outcomes with
    | nil => rw [List.zip_nil_right, List.zip_nil_right, layoutFrom, layoutFrom, hlength]
    | cons outcome outcomes =>
      rw [List.zip_cons_cons, List.zip_cons_cons, layoutFrom, layoutFrom, hm.start, hm.stop,
        hm.length, ih]

/-- The case of a document shows in what is copied from it and nowhere else, as long as a change of
case neither makes nor breaks a word. -/
theorem annotateWithin_sameButCase (annotator : Annotator) (scope : Scope) {t u : Text}
    (h : SameButCase annotator.index.words t u) :
    List.Forall₂ (Match.SamePlace t u) (annotator.find t) (annotator.find u) ∧
    (annotator.annotateWithin scope u).scope = (annotator.annotateWithin scope t).scope ∧
    (annotator.annotateWithin scope u).tally = (annotator.annotateWithin scope t).tally ∧
    annotator.layout scope u = annotator.layout scope t ∧
    Segment.copiedChars (annotator.layout scope t) = t.length ∧
    (annotator.annotateWithin scope t).html = Segment.fill t (annotator.layout scope t) ∧
    (annotator.annotateWithin scope u).html = Segment.fill u (annotator.layout scope t) := by
  have hfind := find_samePlace h
  have houtcomes : annotator.outcomes scope (annotator.find t) =
      annotator.outcomes scope (annotator.find u) := outcomes_samePlace hfind scope
  have hkeys : annotator.definedKeys scope (annotator.find t) =
      annotator.definedKeys scope (annotator.find u) :=
    congrArg (List.filterMap Outcome.definedKey?) houtcomes
  have hlayout : annotator.layout scope u = annotator.layout scope t := by
    rw [layout, layout, ← houtcomes]
    exact (layoutFrom_samePlace hfind h.length_eq _ _ _).symm
  refine ⟨hfind, ?_, ?_, hlayout, copiedChars_layout scope t, html_eq_fill scope t, ?_⟩
  · rw [scope_annotateWithin, scope_annotateWithin, hkeys]
  · rw [tally_annotateWithin, tally_annotateWithin, hkeys, hfind.length_eq,
      ← countP_outcomes scope, ← countP_outcomes scope, houtcomes]
  · rw [← hlayout]
    exact html_eq_fill scope u

def catSource : Source where
  definitions :=
    [{ term := some "Kat".toList, definition := some "dier".toList,
       inflections := ["katje".toList] }]

/-- The Kelvin sign is a capital K of three bytes, and the first match ends two bytes further. -/
theorem annotateWithin_sameButCase_kelvin : ∃ dictionary,
    Dictionary.build catSource { enabled := false } = .ok dictionary ∧
    SameButCase {} "katje, Kat".toList "\u212AATje, \u212Aat".toList ∧
    ((ofDictionary dictionary {} {}).find "katje, Kat".toList).map
      (fun found => (found.start, found.stop)) = [(0, 5), (7, 10)] ∧
    ((ofDictionary dictionary {} {}).find "\u212AATje, \u212Aat".toList).map
      (fun found => (found.start, found.stop)) = [(0, 7), (9, 14)] ∧
    ((ofDictionary dictionary {} {}).annotateWithin {} "\u212AATje, \u212Aat".toList).html =
      Segment.fill "\u212AATje, \u212Aat".toList
        ((ofDictionary dictionary {} {}).layout {} "katje, Kat".toList) := by
  obtain ⟨dictionary, h⟩ : ∃ dictionary,
      Dictionary.build catSource { enabled := false } = .ok dictionary := ⟨_, rfl⟩
  have hcase : SameButCase {} "katje, Kat".toList "\u212AATje, \u212Aat".toList := by
    unfold SameButCase
    decide +kernel
  have hindex : (ofDictionary dictionary {} {}).index.words = {} := PatternIndex.words_ofList _ _
  obtain ⟨-, -, -, -, -, -, hhtml⟩ :=
    annotateWithin_sameButCase (ofDictionary dictionary {} {}) {} (hindex ▸ hcase)
  refine ⟨dictionary, h, hcase, ?_, ?_, hhtml⟩
  · cases h
    decide +kernel
  · cases h
    decide +kernel

end Annotator
end Gloss
