import Gloss.Proofs.Pattern.Registration

/-! An index as a map from case folds to payloads. The first text registered for a case fold keeps
it; what is refused leaves no trace. -/
namespace Gloss.PatternIndex
open Text
variable {P : Type} {index : PatternIndex P} {kept : List (Text × P)}

theorem accepts_registered_iff {calls : List (Text × P)} {text : Text} :
    Accepts (registered calls) text ↔
      text ≠ [] ∧ ∀ call ∈ calls, call.1 ≠ [] → foldCase call.1 ≠ foldCase text := by
  rw [Accepts, registered, mem_map_keepFirst_iff]
  simp

/-- A text that is refused leaves the index as it is, with all its nodes. -/
theorem Registers.add_refused (h : Registers index kept) {text : Text} {payload : P}
    (hrefused : (index.add text payload).2 = false) : (index.add text payload).1 = index := by
  obtain ⟨paths, hs⟩ := h.spelled
  have hterm := hs.terminal?_growPath_node (foldCase text)
  unfold add at hrefused ⊢
  split at hrefused
  · next hempty => rw [if_pos hempty]
  · next hempty =>
    rw [if_neg hempty]
    dsimp only at hrefused ⊢
    cases hstored : index.trie.stored? (foldCase text) with
    | none =>
      rw [hterm, hstored] at hrefused
      cases hrefused
    | some ordinal =>
      obtain ⟨node, hwalk, -⟩ := Option.bind_eq_some_iff.mp hstored
      rw [hterm, hstored, Trie.growPath_of_walk? hwalk]

theorem get?_ofList (words : WordChars) (calls : List (Text × P)) (x : Text) :
    (ofList words calls).get? x =
      (calls.find? fun call => !call.1.isEmpty && foldCase call.1 == foldCase x).map Prod.snd := by
  have hfirst : (registered calls).find? (fun call => foldCase call.1 == foldCase x) =
      calls.find? fun call => !call.1.isEmpty && foldCase call.1 == foldCase x := by
    rw [registered, find?_keepFirst, List.find?_filter]
    congr 1
    funext call
    rw [Bool.decide_and, Bool.decide_eq_true, Bool.decide_eq_true]
  rw [(registers_ofList words calls).get?_eq, ← hfirst, List.find?_eq_bind_findIdx?_getElem?,
    Option.map_bind]
  rfl

theorem literals_ofList (words : WordChars) (calls : List (Text × P)) :
    (ofList words calls).literals =
      ((accepted { words } calls).map fun call => ⟨call.2, call.1⟩).toArray := by
  rw [accepted_new]
  exact (registers_ofList words calls).literals

/-- The first registration wins. A call returns true when its text is not empty and its case fold is
new; a lookup gives the payload of the first text with the case fold; ordinals count the calls that
returned true. A call that returns false changes nothing, and so no answer. -/
theorem ofList_first_wins (words : WordChars) (calls : List (Text × P)) :
    let index := ofList words calls
    (∀ text payload, (index.add text payload).2 = true ↔
      text ≠ [] ∧ ∀ call ∈ calls, call.1 ≠ [] → foldCase call.1 ≠ foldCase text) ∧
    (∀ x, index.get? x =
      (calls.find? fun call => !call.1.isEmpty && foldCase call.1 == foldCase x).map Prod.snd) ∧
    index.get? [] = none ∧
    index.size = (accepted { words } calls).length ∧
    (∀ n, index.originalText? n = (accepted { words } calls)[n]?.map Prod.fst) ∧
    (∀ n, index.originalText? n = none ↔ index.size ≤ n) ∧
    ∀ text payload, (index.add text payload).2 = false →
      (index.add text payload).1 = index := by
  intro index
  have hsize : index.size = (accepted { words } calls).length := by
    rw [size, literals_ofList, List.size_toArray, List.length_map]
  have htext (n : Nat) :
      index.originalText? n = (accepted { words } calls)[n]?.map Prod.fst := by
    rw [originalText?, literals_ofList, List.getElem?_toArray, List.getElem?_map, Option.map_map]
    rfl
  refine ⟨?_, get?_ofList words calls, ?_, hsize, htext, ?_, ?_⟩
  · intro text payload
    exact (add_ofList_iff words calls text payload).trans accepts_registered_iff
  · rw [get?_ofList, List.find?_eq_none.mpr, Option.map_none]
    simp
  · intro n
    rw [htext, hsize, Option.map_eq_none_iff, List.getElem?_eq_none_iff]
  · intro text payload
    exact (registers_ofList words calls).add_refused

example : let index := ofList {} [("DPIA".toList, 1), ("dp".toList, 2), ("dpia".toList, 3), ([], 4)]
    (index.get? "Dpia".toList, index.get? "dpi".toList, index.size, index.nodeCount) =
      (some 1, none, 2, 5) := by decide

end Gloss.PatternIndex
