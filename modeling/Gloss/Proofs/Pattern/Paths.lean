import Gloss.Pattern.Trie
import Mathlib.Data.List.Induction
import Mathlib.Data.List.Nodup
import Mathlib.Tactic.SplitIfs

/-! What the nodes of a prefix tree spell. The texts spelled by the nodes, listed by place, stay
distinct and closed under leading parts while the tree grows, so a walk from the root reaches the
node of a text and no other. -/
namespace Gloss

theorem getElem?_snoc_iff {α : Type} {l : List α} {a b : α} {i : Nat} :
    (l ++ [a])[i]? = some b ↔ l[i]? = some b ∨ i = l.length ∧ a = b := by
  rcases Nat.lt_trichotomy i l.length with hi | rfl | hi
  · simp [List.getElem?_append_left hi, Nat.ne_of_lt hi]
  · simp
  · simp [List.getElem?_append_right (Nat.le_of_lt hi), Nat.le_of_lt hi, Nat.ne_of_gt hi,
      Nat.sub_ne_zero_of_lt hi]

namespace Trie
variable {trie : Trie} {paths : List Text} {node n m : Nat} {c : Char} {p q : Text}

private theorem lookup_insertEdge {edges : List (Char × Nat)} {target : Nat}
    (h : edges.lookup c = none) (d : Char) :
    (insertEdge c target edges).lookup d = if d = c then some target else edges.lookup d := by
  induction edges with
  | nil =>
    rw [insertEdge, List.lookup_cons]
    by_cases hd : d = c <;> simp [hd, beq_false_of_ne]
  | cons edge edges ih =>
    rw [List.lookup_cons] at h
    split at h
    · simp at h
    · next hne =>
      unfold insertEdge
      split
      · rw [List.lookup_cons]
        by_cases hd : d = c <;> simp [hd, beq_false_of_ne]
      · rw [List.lookup_cons, ih h, List.lookup_cons]
        by_cases hd : d = c
        · subst hd; simp [hne]
        · simp [hd]

/-- Growing adds one edge and leaves the others. -/
theorem child?_grow (hn : node < trie.nodes.size) (hc : trie.child? node c = none) (k : Nat)
    (d : Char) : (trie.grow node c).1.child? k d =
      if k = node ∧ d = c then some trie.nodes.size else trie.child? k d := by
  have hlook : (trie.nodes[node]).children.lookup c = none := by
    simpa [child?, Array.getElem?_eq_getElem hn] using hc
  unfold grow
  rw [hc]
  simp only [child?, Array.getElem?_push, Array.size_modify, Array.getElem?_modify]
  by_cases hlast : k = trie.nodes.size
  · simp [hlast, show trie.nodes.size ≠ node by omega]
  · rw [if_neg hlast]
    by_cases hk : node = k
    · subst hk
      simp [Array.getElem?_eq_getElem hn, Node.addChild, lookup_insertEdge hlook]
    · simp [hk, Ne.symm hk]

theorem grow_of_child (hc : trie.child? node c = some n) : trie.grow node c = (trie, n) := by
  unfold grow
  rw [hc]

theorem size_grow (hc : trie.child? node c = none) :
    (trie.grow node c).1.nodes.size = trie.nodes.size + 1 := by
  unfold grow
  rw [hc]
  simp

theorem grow_node (hc : trie.child? node c = none) : (trie.grow node c).2 = trie.nodes.size := by
  unfold grow
  rw [hc]

theorem terminal?_grow (trie : Trie) (node : Nat) (c : Char) (k : Nat) :
    (trie.grow node c).1.terminal? k = trie.terminal? k := by
  unfold grow
  split
  · rfl
  · simp only [terminal?, Array.getElem?_push, Array.size_modify, Array.getElem?_modify]
    by_cases hlast : k = trie.nodes.size
    · simp [hlast]
    · by_cases hk : node = k
      · subst hk
        cases trie.nodes[node]? <;> simp [hlast, Node.addChild]
      · simp [hlast, hk]

theorem terminal?_growPath (trie : Trie) (node : Nat) (x : Text) (k : Nat) :
    (trie.growPath node x).1.terminal? k = trie.terminal? k := by
  induction x generalizing trie node with
  | nil => rfl
  | cons c x ih => rw [growPath, ih, terminal?_grow]

theorem child?_mark (trie : Trie) (node value k : Nat) (d : Char) :
    (trie.mark node value).child? k d = trie.child? k d := by
  simp only [child?, mark, Array.getElem?_modify]
  split
  · next h =>
    subst h
    cases trie.nodes[node]? <;> rfl
  · rfl

theorem terminal?_mark (hn : node < trie.nodes.size) (value k : Nat) :
    (trie.mark node value).terminal? k = if k = node then some value else trie.terminal? k := by
  simp only [terminal?, mark, Array.getElem?_modify]
  by_cases hk : node = k
  · subst hk
    simp [Array.getElem?_eq_getElem hn]
  · simp [hk, Ne.symm hk]

theorem walk?_append (trie : Trie) (node : Nat) (x y : Text) :
    trie.walk? node (x ++ y) = (trie.walk? node x).bind (trie.walk? · y) := by
  induction x generalizing node with
  | nil => rfl
  | cons c x ih =>
    simp only [List.cons_append, walk?]
    cases trie.child? node c with
    | none => rfl
    | some k => exact ih k

/-- Nothing grows along a text that is spelled already. -/
theorem growPath_of_walk? {x : Text} (h : trie.walk? node x = some n) :
    trie.growPath node x = (trie, n) := by
  induction x generalizing node with
  | nil =>
    cases h
    rfl
  | cons c x ih =>
    rw [walk?] at h
    cases hc : trie.child? node c with
    | none => simp [hc] at h
    | some next =>
      rw [hc] at h
      rw [growPath, grow_of_child hc]
      exact ih h

def stored? (trie : Trie) (x : Text) : Option Nat :=
  (trie.walk? 0 x).bind trie.terminal?

/-- The nodes of a tree spell the texts of a list, each node the text at its place. -/
structure Spells (trie : Trie) (paths : List Text) : Prop where
  length_eq : paths.length = trie.nodes.size
  root : paths[0]? = some []
  nodup : paths.Nodup
  edge (n : Nat) (c : Char) (m : Nat) : trie.child? n c = some m ↔
    ∃ p : Text, paths[n]? = some p ∧ paths[m]? = some (p ++ [c])
  parent (m : Nat) (p : Text) (c : Char) :
    paths[m]? = some (p ++ [c]) → ∃ n < m, paths[n]? = some p

theorem spells_new : Spells {} [[]] where
  length_eq := rfl
  root := rfl
  nodup := by simp
  edge n c m := by
    constructor
    · intro h
      cases n <;> simp [child?] at h
    · rintro ⟨p, -, hm⟩
      cases m <;> simp at hm
  parent m p c hm := by cases m <;> simp at hm

namespace Spells

theorem lt_size (h : Spells trie paths) (hn : paths[n]? = some p) : n < trie.nodes.size := by
  rw [← h.length_eq]
  exact (List.getElem?_eq_some_iff.mp hn).1

theorem unique (h : Spells trie paths) (hn : paths[n]? = some p) (hm : paths[m]? = some p) :
    n = m :=
  (List.getElem?_inj (List.getElem?_eq_some_iff.mp hn).1 h.nodup).mp (hn.trans hm.symm)

theorem leading (h : Spells trie paths) (hm : paths[m]? = some (p ++ q)) :
    ∃ n : Nat, paths[n]? = some p := by
  induction q using List.reverseRecOn generalizing m with
  | nil => exact ⟨m, by simpa using hm⟩
  | append_singleton q c ih =>
    rw [← List.append_assoc] at hm
    obtain ⟨k, -, hk⟩ := h.parent m _ c hm
    exact ih hk

/-- A walk reaches the node that spells what was walked. -/
theorem walk?_iff (h : Spells trie paths) (hn : paths[n]? = some p) (x : Text) :
    trie.walk? n x = some m ↔ paths[m]? = some (p ++ x) := by
  induction x generalizing n p with
  | nil =>
    simp only [walk?, Option.some.injEq, List.append_nil]
    exact ⟨fun he => he ▸ hn, fun hm => h.unique hn hm⟩
  | cons c x ih =>
    have hassoc : p ++ c :: x = p ++ [c] ++ x := by simp
    rw [walk?, hassoc]
    constructor
    · intro hw
      cases hc : trie.child? n c with
      | none => simp [hc] at hw
      | some k =>
        rw [hc] at hw
        obtain ⟨p', hp', hk⟩ := (h.edge n c k).mp hc
        cases hn.symm.trans hp'
        exact (ih hk).mp hw
    · intro hm
      obtain ⟨k, hk⟩ := h.leading hm
      rw [(h.edge n c k).mpr ⟨p, hn, hk⟩]
      exact (ih hk).mpr hm

theorem walk?_root_iff (h : Spells trie paths) (x : Text) :
    trie.walk? 0 x = some m ↔ paths[m]? = some x :=
  h.walk?_iff h.root x

private theorem grow_new (h : Spells trie paths) (hn : paths[node]? = some p)
    (hc : trie.child? node c = none) : Spells (trie.grow node c).1 (paths ++ [p ++ [c]]) := by
  have hsize := h.lt_size hn
  have hfresh : p ++ [c] ∉ paths := by
    intro hmem
    obtain ⟨m, hm⟩ := List.mem_iff_getElem?.mp hmem
    rw [(h.edge node c m).mpr ⟨p, hn, hm⟩] at hc
    cases hc
  have hlen := h.length_eq
  have hnode : node < paths.length := by omega
  refine ⟨by simp [size_grow hc, hlen], ?_, ?_, ?_, ?_⟩
  · exact getElem?_snoc_iff.mpr (.inl h.root)
  · rw [List.nodup_append]
    refine ⟨h.nodup, by simp, ?_⟩
    rintro a ha b hb rfl
    exact hfresh (List.mem_singleton.mp hb ▸ ha)
  · intro k d m
    rw [child?_grow hsize hc, ← hlen]
    simp only [getElem?_snoc_iff]
    split_ifs with hkd
    · obtain ⟨rfl, rfl⟩ := hkd
      constructor
      · intro he
        exact ⟨p, .inl hn, .inr ⟨(Option.some.inj he).symm, rfl⟩⟩
      · rintro ⟨p', hp' | ⟨hk, -⟩, hm⟩
        · cases hn.symm.trans hp'
          rcases hm with hm | ⟨rfl, -⟩
          · exact absurd (List.mem_of_getElem? hm) hfresh
          · rfl
        · omega
    · rw [h.edge]
      constructor
      · rintro ⟨p', hp', hm⟩
        exact ⟨p', .inl hp', .inl hm⟩
      · rintro ⟨p', hp' | ⟨rfl, rfl⟩, hm | ⟨rfl, hm⟩⟩
        · exact ⟨p', hp', hm⟩
        · obtain ⟨rfl, hcd⟩ := List.append_inj' hm rfl
          cases hcd
          exact absurd ⟨h.unique hp' hn, rfl⟩ hkd
        · obtain ⟨n, -, hp⟩ := h.parent m _ d hm
          exact absurd (List.mem_of_getElem? hp) hfresh
        · exact absurd (congrArg List.length hm) (by simp)
  · intro m q d hm
    rcases getElem?_snoc_iff.mp hm with hm | ⟨rfl, he⟩
    · obtain ⟨n, hlt, hq⟩ := h.parent m q d hm
      exact ⟨n, hlt, getElem?_snoc_iff.mpr (.inl hq)⟩
    · obtain ⟨rfl, -⟩ := List.append_inj' he rfl
      exact ⟨node, hnode, getElem?_snoc_iff.mpr (.inl hn)⟩

/-- Growing along a text makes the tree spell its leading parts, nothing else that is new, and keeps
every place as it was. -/
theorem growPath (h : Spells trie paths) (hn : paths[node]? = some p) (x : Text) :
    ∃ more, Spells (trie.growPath node x).1 (paths ++ more) ∧
      (paths ++ more)[(trie.growPath node x).2]? = some (p ++ x) ∧
      ∀ q ∈ more, q <+: p ++ x := by
  induction x generalizing trie paths node p with
  | nil =>
    exact ⟨[], by simpa [Trie.growPath] using h, by simpa [Trie.growPath] using hn,
      fun q hq => absurd hq List.not_mem_nil⟩
  | cons c x ih =>
    rw [Trie.growPath]
    cases hc : trie.child? node c with
    | some k =>
      obtain ⟨p', hp', hk⟩ := (h.edge node c k).mp hc
      cases hn.symm.trans hp'
      rw [grow_of_child hc]
      simpa using ih h hk
    | none =>
      have hk : (paths ++ [p ++ [c]])[(trie.grow node c).2]? = some (p ++ [c]) := by
        rw [grow_node hc, ← h.length_eq]
        simp
      obtain ⟨more, hs, he, hmore⟩ := ih (h.grow_new hn hc) hk
      rw [List.append_assoc, List.singleton_append] at hs he
      rw [← List.append_cons] at he hmore
      refine ⟨(p ++ [c]) :: more, hs, he, ?_⟩
      intro q hq
      rcases List.mem_cons.mp hq with rfl | hq
      · exact ⟨x, by simp⟩
      · exact hmore q hq

theorem mark (h : Spells trie paths) (node value : Nat) : Spells (trie.mark node value) paths where
  length_eq := by simp [Trie.mark, h.length_eq]
  root := h.root
  nodup := h.nodup
  edge n c m := by rw [child?_mark]; exact h.edge n c m
  parent := h.parent

theorem terminal?_of_path (h : Spells trie paths) (hn : paths[n]? = some p) :
    trie.terminal? n = trie.stored? p := by
  rw [stored?, (h.walk?_root_iff p).mpr hn]
  rfl

theorem stored?_growPath (h : Spells trie paths) (x y : Text) :
    (trie.growPath 0 x).1.stored? y = trie.stored? y := by
  obtain ⟨more, hs, -⟩ := h.growPath h.root x
  rw [stored?, stored?]
  cases hw : trie.walk? 0 y with
  | some k =>
    have hk := (h.walk?_root_iff y).mp hw
    have hgrown : (paths ++ more)[k]? = some y := by
      rw [List.getElem?_append_left (List.getElem?_eq_some_iff.mp hk).1, hk]
    rw [(hs.walk?_root_iff y).mpr hgrown]
    exact terminal?_growPath trie 0 x k
  | none =>
    cases hg : (trie.growPath 0 x).1.walk? 0 y with
    | none => rfl
    | some k =>
      have hk := (hs.walk?_root_iff y).mp hg
      have hle : paths.length ≤ k := by
        by_contra hlt
        rw [List.getElem?_append_left (by omega)] at hk
        rw [(h.walk?_root_iff y).mpr hk] at hw
        cases hw
      rw [Option.bind_some, Option.bind_none, terminal?_growPath, terminal?,
        Array.getElem?_eq_none (h.length_eq ▸ hle), Option.bind_none]

theorem terminal?_growPath_node (h : Spells trie paths) (x : Text) :
    (trie.growPath 0 x).1.terminal? (trie.growPath 0 x).2 = trie.stored? x := by
  obtain ⟨more, hs, hn, -⟩ := h.growPath h.root x
  rw [hs.terminal?_of_path hn, List.nil_append, h.stored?_growPath]

theorem stored?_mark (h : Spells trie paths) (hn : paths[node]? = some p) (value : Nat)
    (x : Text) :
    (trie.mark node value).stored? x = if x = p then some value else trie.stored? x := by
  have hwalk (k : Nat) : (trie.mark node value).walk? 0 x = some k ↔ trie.walk? 0 x = some k :=
    ((h.mark node value).walk?_root_iff x).trans (h.walk?_root_iff x).symm
  rw [stored?, stored?, Option.ext hwalk]
  cases hw : trie.walk? 0 x with
  | none =>
    have hx : x ≠ p := by
      rintro rfl
      rw [(h.walk?_root_iff x).mpr hn] at hw
      cases hw
    simp [hx]
  | some k =>
    have hk := (h.walk?_root_iff x).mp hw
    simp only [Option.bind_some, terminal?_mark (h.lt_size hn)]
    by_cases hkn : k = node
    · subst hkn
      cases hn.symm.trans hk
      simp
    · have hx : x ≠ p := by
        rintro rfl
        exact hkn (h.unique hk hn)
      simp [hkn, hx]

end Spells
end Trie
end Gloss
