import Gloss.Proofs.Pattern.Registration
import Mathlib.Data.List.Perm.Basic

/-! Which nodes an index has: one for every leading part of a case fold that was ever offered. The
order in which texts are registered changes their places, not their number. -/
namespace Gloss.PatternIndex
open Text
variable {P : Type} {index : PatternIndex P} {paths : List Text}

/-- Registering a text adds nodes for the leading parts of its case fold, accepted or not. -/
theorem spells_add (h : index.trie.Spells paths) (text : Text) (payload : P) :
    ∃ grown, (index.add text payload).1.trie.Spells grown ∧
      ∀ p, p ∈ grown ↔ p ∈ paths ∨ p <+: foldCase text := by
  obtain ⟨more, hs, hnode, hmore⟩ := h.growPath h.root (foldCase text)
  rw [List.nil_append] at hnode hmore
  have hmem (p : Text) : p ∈ paths ++ more ↔ p ∈ paths ∨ p <+: foldCase text := by
    constructor
    · intro hp
      rcases List.mem_append.mp hp with hp | hp
      · exact .inl hp
      · exact .inr (hmore p hp)
    · rintro (hp | ⟨behind, hp⟩)
      · exact List.mem_append_left _ hp
      · rw [← hp] at hnode
        obtain ⟨n, hn⟩ := hs.leading hnode
        exact List.mem_of_getElem? hn
  unfold PatternIndex.add
  split
  · next hempty =>
    rw [List.isEmpty_iff] at hempty
    subst hempty
    refine ⟨paths, h, fun p => ⟨.inl, ?_⟩⟩
    rintro (hp | hp)
    · exact hp
    · rw [foldCase_nil, List.prefix_nil] at hp
      exact hp ▸ List.mem_of_getElem? h.root
  · dsimp only
    split
    · exact ⟨_, hs, hmem⟩
    · exact ⟨_, hs.mark _ _, hmem⟩

/-- The nodes of an index spell the leading parts of all case folds. -/
theorem spells_ofList (words : WordChars) (calls : List (Text × P)) :
    ∃ paths, (ofList words calls).trie.Spells paths ∧
      ∀ p, p ∈ paths ↔ p = [] ∨ ∃ fold ∈ calls.map (foldCase ∘ Prod.fst), p <+: fold := by
  induction calls using List.reverseRecOn with
  | nil => exact ⟨_, Trie.spells_new, by simp⟩
  | append_singleton calls call ih =>
    obtain ⟨paths, hs, hmem⟩ := ih
    rw [ofList_concat]
    obtain ⟨grown, hgrown, hp⟩ := spells_add hs call.1 call.2
    refine ⟨grown, hgrown, fun p => ?_⟩
    rw [hp, hmem, or_assoc, List.map_append, List.map_singleton]
    simp only [List.mem_append, List.mem_singleton, or_and_right, exists_or, exists_eq_left,
      Function.comp_apply]

/-- The number of nodes does not depend on the order of registration. -/
theorem nodeCount_perm {calls other : List (Text × P)}
    (h : (calls.map (foldCase ∘ Prod.fst)).Perm (other.map (foldCase ∘ Prod.fst)))
    (words : WordChars) : (ofList words calls).nodeCount = (ofList words other).nodeCount := by
  obtain ⟨paths, hs, hmem⟩ := spells_ofList words calls
  obtain ⟨paths', hs', hmem'⟩ := spells_ofList words other
  have hperm : paths.Perm paths' := by
    rw [List.perm_ext_iff_of_nodup hs.nodup hs'.nodup]
    intro p
    rw [hmem, hmem']
    simp only [h.mem_iff]
  rw [nodeCount, nodeCount, ← hs.length_eq, ← hs'.length_eq, hperm.length_eq]

end Gloss.PatternIndex
