import Gloss.Pattern.Index
import Gloss.Proofs.Pattern.Paths
import Gloss.Proofs.Text.Fold

/-! Registering texts one after another. The tree and the literals of an index say the same: which
texts were accepted, and in which order. -/
namespace Gloss.PatternIndex
open Text
variable {P : Type} {index : PatternIndex P} {kept : List (Text × P)}

def registered (calls : List (Text × P)) : List (Text × P) :=
  keepFirst Prod.fst (calls.filter (!·.1.isEmpty))

/-- An index holds exactly the accepted texts, each under its place among them. -/
structure Registers (index : PatternIndex P) (kept : List (Text × P)) : Prop where
  spelled : ∃ paths, index.trie.Spells paths
  literals : index.literals = (kept.map fun call => ⟨call.2, call.1⟩).toArray
  stored (x : Text) :
    index.trie.stored? x = kept.findIdx? (fun call => foldCase call.1 == x)

theorem registers_new (words : WordChars) : Registers (P := P) { words } [] where
  spelled := ⟨_, Trie.spells_new⟩
  literals := rfl
  stored x := by
    cases hs : ({} : Trie).stored? x with
    | none => rfl
    | some k =>
      obtain ⟨n, hn, ht⟩ := Option.bind_eq_some_iff.mp hs
      cases n <;> simp [Trie.terminal?] at ht

private theorem findIdx?_fold_eq_none_iff {x : Text} :
    kept.findIdx? (fun call => foldCase call.1 == x) = none ↔
      x ∉ kept.map (foldCase ∘ Prod.fst) := by
  simp [List.findIdx?_eq_none_iff]

namespace Registers

/-- A text whose case fold is new is accepted, and everything else stays. -/
theorem add_new (h : Registers index kept) {text : Text} (ht : text ≠ [])
    (hnew : foldCase text ∉ kept.map (foldCase ∘ Prod.fst)) (payload : P) :
    (index.add text payload).2 = true ∧
      Registers (index.add text payload).1 (kept ++ [(text, payload)]) := by
  obtain ⟨paths, hs⟩ := h.spelled
  obtain ⟨more, hgrown, hnode, -⟩ := hs.growPath hs.root (foldCase text)
  have hterm := (hs.terminal?_growPath_node (foldCase text)).trans
    ((h.stored _).trans (findIdx?_fold_eq_none_iff.mpr hnew))
  rw [add, if_neg (by simpa using ht)]
  dsimp only
  rw [hterm]
  refine ⟨rfl, ⟨_, hgrown.mark _ _⟩, by simp [h.literals], fun x => ?_⟩
  dsimp only
  rw [hgrown.stored?_mark hnode, hs.stored?_growPath, h.stored, List.findIdx?_append]
  by_cases hx : x = foldCase text
  · subst hx
    simp [findIdx?_fold_eq_none_iff.mpr hnew, h.literals]
  · simp [hx, Ne.symm hx]

/-- A text whose case fold is taken is refused, and so is the empty text. -/
theorem add_taken (h : Registers index kept) {text : Text}
    (ht : text = [] ∨ foldCase text ∈ kept.map (foldCase ∘ Prod.fst)) (payload : P) :
    (index.add text payload).2 = false ∧ Registers (index.add text payload).1 kept := by
  by_cases he : text = []
  · subst he
    exact ⟨rfl, h⟩
  obtain ⟨paths, hs⟩ := h.spelled
  obtain ⟨more, hgrown, -⟩ := hs.growPath hs.root (foldCase text)
  obtain ⟨ordinal, hord⟩ := Option.ne_none_iff_exists'.mp
    (findIdx?_fold_eq_none_iff.not_left.mpr (ht.resolve_left he))
  have hterm := (hs.terminal?_growPath_node (foldCase text)).trans ((h.stored _).trans hord)
  rw [add, if_neg (by simpa using he)]
  dsimp only
  rw [hterm]
  refine ⟨rfl, ⟨_, hgrown⟩, h.literals, fun x => ?_⟩
  rw [hs.stored?_growPath, h.stored]

theorem stored_call (h : Registers index kept) {x : Text} {n : Nat}
    (hn : index.trie.stored? x = some n) :
    ∃ call, kept[n]? = some call ∧ foldCase call.1 = x ∧
      index.literals[n]? = some ⟨call.2, call.1⟩ := by
  rw [h.stored, List.findIdx?_eq_some_iff_getElem] at hn
  obtain ⟨hlt, hfold, -⟩ := hn
  refine ⟨kept[n], List.getElem?_eq_getElem hlt, by simpa using hfold, ?_⟩
  simp [h.literals, List.getElem?_eq_getElem hlt]

theorem get?_eq (h : Registers index kept) (part : Text) :
    index.get? part = (kept.findIdx? fun call => foldCase call.1 == foldCase part).bind
      fun n => kept[n]?.map Prod.snd := by
  have hget : index.get? part = (index.trie.stored? (foldCase part)).bind
      fun n => index.literals[n]?.map (·.payload) := by
    unfold get? Trie.stored?
    rw [Option.bind_assoc]
    simp only [Option.map_eq_bind]
    rfl
  rw [hget, h.stored, h.literals]
  simp only [List.getElem?_toArray, List.getElem?_map, Option.map_map]
  rfl

end Registers

theorem ofList_concat (words : WordChars) (calls : List (Text × P)) (call : Text × P) :
    ofList words (calls ++ [call]) = ((ofList words calls).add call.1 call.2).1 := by
  simp [ofList]

theorem registered_concat (calls : List (Text × P)) (call : Text × P) :
    registered (calls ++ [call]) =
      if call.1 = [] then registered calls else keepNew Prod.fst (registered calls) call := by
  rw [registered, List.filter_append]
  split_ifs with he
  · simp [registered, he]
  · rw [List.filter_cons_of_pos (by simpa using he), List.filter_nil, keepFirst_concat]
    rfl

def Accepts (kept : List (Text × P)) (text : Text) : Prop :=
  text ≠ [] ∧ foldCase text ∉ kept.map (foldCase ∘ Prod.fst)

theorem registered_concat_of_accepts {calls : List (Text × P)} {call : Text × P}
    (h : Accepts (registered calls) call.1) :
    registered (calls ++ [call]) = registered calls ++ [call] := by
  rw [registered_concat, if_neg h.1, keepNew_of_new h.2]

theorem registered_concat_of_not_accepts {calls : List (Text × P)} {call : Text × P}
    (h : ¬ Accepts (registered calls) call.1) :
    registered (calls ++ [call]) = registered calls := by
  rw [registered_concat]
  split_ifs with he
  · rfl
  · exact keepNew_of_taken (Classical.not_not.mp fun hnew => h ⟨he, hnew⟩)

private theorem taken_of_not_accepts {text : Text} (h : ¬ Accepts kept text) :
    text = [] ∨ foldCase text ∈ kept.map (foldCase ∘ Prod.fst) := by
  by_contra hne
  rw [not_or] at hne
  exact h hne

/-- An index made of a list of texts holds the first text of each case fold. -/
theorem registers_ofList (words : WordChars) (calls : List (Text × P)) :
    Registers (ofList words calls) (registered calls) := by
  induction calls using List.reverseRecOn with
  | nil => exact registers_new words
  | append_singleton calls call ih =>
    rw [ofList_concat]
    by_cases h : Accepts (registered calls) call.1
    · rw [registered_concat_of_accepts h]
      exact (ih.add_new h.1 h.2 call.2).2
    · rw [registered_concat_of_not_accepts h]
      exact (ih.add_taken (taken_of_not_accepts h) call.2).2

theorem add_ofList_iff (words : WordChars) (calls : List (Text × P)) (text : Text) (payload : P) :
    ((ofList words calls).add text payload).2 = true ↔ Accepts (registered calls) text := by
  have hr := registers_ofList words calls
  constructor
  · intro hadd
    by_contra h
    rw [(hr.add_taken (taken_of_not_accepts h) payload).1] at hadd
    cases hadd
  · intro h
    exact (hr.add_new h.1 h.2 payload).1

/-- Of a sequence of texts to register, those whose call returns true. -/
def accepted (index : PatternIndex P) : List (Text × P) → List (Text × P)
  | [] => []
  | call :: rest =>
    let next := index.add call.1 call.2
    if next.2 then call :: next.1.accepted rest else next.1.accepted rest

private theorem accepted_concat (index : PatternIndex P) (calls : List (Text × P))
    (call : Text × P) : index.accepted (calls ++ [call]) = index.accepted calls ++
      if ((calls.foldl (fun index entry => (index.add entry.1 entry.2).1) index).add
        call.1 call.2).2 then [call] else [] := by
  induction calls generalizing index with
  | nil => rfl
  | cons first calls ih =>
    rw [List.cons_append, accepted, accepted, ih, List.foldl_cons]
    split
    · rfl
    · rfl

/-- The calls that return true are those with a new case fold. -/
theorem accepted_new (words : WordChars) (calls : List (Text × P)) :
    accepted { words } calls = registered calls := by
  induction calls using List.reverseRecOn with
  | nil => rfl
  | append_singleton calls call ih =>
    rw [accepted_concat, ih, ← ofList]
    have hadd := add_ofList_iff words calls call.1 call.2
    by_cases h : Accepts (registered calls) call.1
    · rw [registered_concat_of_accepts h, hadd.mpr h]
      rfl
    · rw [registered_concat_of_not_accepts h, Bool.eq_false_iff.mpr (h ∘ hadd.mp)]
      simp

def successes (index : PatternIndex P) : List (Text × P) → Nat
  | [] => 0
  | call :: rest =>
    (index.add call.1 call.2).2.toNat + successes (index.add call.1 call.2).1 rest

theorem length_accepted (index : PatternIndex P) (calls : List (Text × P)) :
    (index.accepted calls).length = index.successes calls := by
  induction calls generalizing index with
  | nil => rfl
  | cons call rest ih =>
    rw [accepted, successes, ← ih]
    cases (index.add call.1 call.2).2 with
    | false => exact (Nat.zero_add _).symm
    | true => exact Nat.add_comm _ 1

/-- As many calls are accepted as texts are kept. -/
theorem successes_new (words : WordChars) (calls : List (Text × P)) :
    successes { words } calls = (registered calls).length := by
  rw [← length_accepted, accepted_new]

/-- The call that an ordinal goes back to. As many calls before it were accepted as the ordinal
says. -/
theorem registered_origin {calls : List (Text × P)} {n : Nat} {call : Text × P}
    (h : (registered calls)[n]? = some call) :
    ∃ earlier later, calls = earlier ++ call :: later ∧ (registered earlier).length = n ∧
      Accepts (registered earlier) call.1 := by
  induction calls using List.reverseRecOn with
  | nil => simp [registered, keepFirst] at h
  | append_singleton calls last ih =>
    have hearlier (h : (registered calls)[n]? = some call) :
        ∃ earlier later, calls ++ [last] = earlier ++ call :: later ∧
          (registered earlier).length = n ∧ Accepts (registered earlier) call.1 := by
      obtain ⟨earlier, later, rfl, hn, hc⟩ := ih h
      exact ⟨earlier, later ++ [last], by simp, hn, hc⟩
    by_cases ha : Accepts (registered calls) last.1
    · rw [registered_concat_of_accepts ha] at h
      rcases getElem?_snoc_iff.mp h with h | ⟨rfl, rfl⟩
      · exact hearlier h
      · exact ⟨calls, [], rfl, rfl, ha⟩
    · rw [registered_concat_of_not_accepts ha] at h
      exact hearlier h

@[simp] theorem words_add (index : PatternIndex P) (text : Text) (payload : P) :
    (index.add text payload).1.words = index.words := by
  unfold PatternIndex.add
  split
  · rfl
  · dsimp only
    split <;> rfl

theorem words_ofList (words : WordChars) (calls : List (Text × P)) :
    (ofList words calls).words = words := by
  induction calls using List.reverseRecOn with
  | nil => rfl
  | append_singleton calls call ih => rw [ofList_concat, words_add, ih]

end Gloss.PatternIndex
