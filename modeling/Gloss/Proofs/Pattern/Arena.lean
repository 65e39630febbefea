import Gloss.Proofs.Pattern.Nodes
import Mathlib.Data.List.Dedup
import Mathlib.Data.List.Infix

/-! The prefix tree of an index as it lies in its array. Edges stand in order and lead forward, one
edge leads to each node but the root, and every leaf ends a text. No node is idle: there is one for
each leading part of the accepted case folds. -/
namespace Gloss

namespace Trie
variable {trie : Trie} {paths : List Text} {children : List (Char × Nat)} {n m : Nat} {c : Char}

/-- The edges from a node, with the nodes that they lead to. None come from a place that has no
node. -/
def edges (trie : Trie) (n : Nat) : List (Char × Nat) :=
  trie.nodes[n]?.elim [] (·.children)

/-- The edges from every node stand in strictly ascending order of their characters. -/
def Ascending (trie : Trie) : Prop :=
  ∀ n, (trie.edges n).Pairwise fun a b => a.1.toNat < b.1.toNat

theorem child?_eq_lookup (trie : Trie) (n : Nat) (c : Char) :
    trie.child? n c = (trie.edges n).lookup c := by
  unfold child? edges
  cases trie.nodes[n]? <;> rfl

theorem mem_insertEdge {target : Nat} {edge : Char × Nat} :
    edge ∈ insertEdge c target children ↔ edge = (c, target) ∨ edge ∈ children := by
  induction children with
  | nil => simp [insertEdge]
  | cons first children ih =>
    unfold insertEdge
    split
    · exact List.mem_cons
    · rw [List.mem_cons, ih, List.mem_cons, or_left_comm]

theorem lookup_eq_some_iff_mem (h : children.Pairwise fun a b => a.1.toNat < b.1.toNat) :
    children.lookup c = some m ↔ (c, m) ∈ children := by
  induction children with
  | nil => simp
  | cons first children ih =>
    obtain ⟨hfirst, hrest⟩ := List.pairwise_cons.mp h
    rw [List.lookup_cons, List.mem_cons]
    by_cases hc : c = first.1
    · subst hc
      have hnot : (first.1, m) ∉ children := fun hmem =>
        Nat.lt_irrefl first.1.toNat (hfirst (first.1, m) hmem)
      simp [hnot, Prod.ext_iff, eq_comm]
    · rw [beq_false_of_ne hc, ih hrest]
      simp [Prod.ext_iff, hc]

theorem pairwise_insertEdge (h : children.Pairwise fun a b => a.1.toNat < b.1.toNat)
    (hc : children.lookup c = none) (target : Nat) :
    (insertEdge c target children).Pairwise fun a b => a.1.toNat < b.1.toNat := by
  induction children with
  | nil => simp [insertEdge]
  | cons first children ih =>
    obtain ⟨hfirst, hrest⟩ := List.pairwise_cons.mp h
    rw [List.lookup_cons] at hc
    split at hc
    · cases hc
    · next hne =>
      have hne : c.toNat ≠ first.1.toNat := fun he => by simp [Char.toNat_inj.mp he] at hne
      unfold insertEdge
      split
      · next hlt =>
        refine List.pairwise_cons.mpr ⟨List.forall_mem_cons.mpr ⟨hlt, fun b hb => ?_⟩, h⟩
        exact Nat.lt_trans hlt (hfirst b hb)
      · next hge =>
        refine List.pairwise_cons.mpr ⟨fun b hb => ?_, ih hrest hc⟩
        rcases mem_insertEdge.mp hb with rfl | hb
        · exact Nat.lt_of_le_of_ne (Nat.le_of_not_lt hge) hne.symm
        · exact hfirst b hb

namespace Ascending

theorem new : Ascending {} := by
  intro n
  cases n <;> simp [edges]

theorem grow (h : trie.Ascending) (node : Nat) (c : Char) : (trie.grow node c).1.Ascending := by
  unfold Trie.grow
  split
  · exact h
  · next hc =>
    rw [child?_eq_lookup] at hc
    intro k
    have hk := h k
    unfold edges at hc hk ⊢
    simp only [Array.getElem?_push, Array.size_modify, Array.getElem?_modify]
    split_ifs with hlast hnode
    · simp
    · subst hnode
      cases hn : trie.nodes[node]? with
      | none => simp
      | some found =>
        rw [hn] at hc hk
        exact pairwise_insertEdge hk hc trie.nodes.size
    · exact hk

theorem growPath (h : trie.Ascending) (node : Nat) (x : Text) :
    (trie.growPath node x).1.Ascending := by
  induction x generalizing trie node with
  | nil => exact h
  | cons c x ih => exact ih (h.grow node c) _

theorem mark (h : trie.Ascending) (node value : Nat) : (trie.mark node value).Ascending := by
  intro k
  have hk := h k
  unfold edges Trie.mark at *
  rw [Array.getElem?_modify]
  split_ifs with hnode
  · subst hnode
    cases hn : trie.nodes[node]? with
    | none => simp
    | some found =>
      rw [hn] at hk
      exact hk
  · exact hk

end Ascending

namespace Spells

theorem mem_edges_iff (h : Spells trie paths) (ha : trie.Ascending) :
    (c, m) ∈ trie.edges n ↔ ∃ p : Text, paths[n]? = some p ∧ paths[m]? = some (p ++ [c]) := by
  rw [← lookup_eq_some_iff_mem (ha n), ← child?_eq_lookup]
  exact h.edge n c m

theorem edge_forward (h : Spells trie paths) (ha : trie.Ascending) (he : (c, m) ∈ trie.edges n) :
    n < m ∧ m < trie.nodes.size := by
  obtain ⟨p, hn, hm⟩ := (h.mem_edges_iff ha).mp he
  obtain ⟨k, hk, hp⟩ := h.parent m p c hm
  rw [h.unique hn hp]
  exact ⟨hk, h.lt_size hm⟩

theorem exists_path (h : Spells trie paths) (hn : n < trie.nodes.size) :
    ∃ p : Text, paths[n]? = some p :=
  ⟨_, List.getElem?_eq_getElem (h.length_eq ▸ hn)⟩

theorem path_ne_nil (h : Spells trie paths) {p : Text} (hp : paths[n]? = some p) (hn : 0 < n) :
    p ≠ [] := by
  rintro rfl
  exact Nat.ne_of_gt hn (h.unique hp h.root)

theorem existsUnique_edge (h : Spells trie paths) (ha : trie.Ascending) (hpos : 0 < m)
    (hm : m < trie.nodes.size) : ∃! edge : Nat × Char, (edge.2, m) ∈ trie.edges edge.1 := by
  obtain ⟨p, hp⟩ := h.exists_path hm
  obtain ⟨q, c, rfl⟩ := (List.eq_nil_or_concat' p).resolve_left (h.path_ne_nil hp hpos)
  obtain ⟨n, -, hn⟩ := h.parent m q c hp
  refine ⟨(n, c), (h.mem_edges_iff ha).mpr ⟨q, hn, hp⟩, ?_⟩
  rintro ⟨n', c'⟩ he
  obtain ⟨q', hn', hp'⟩ := (h.mem_edges_iff ha).mp he
  obtain ⟨rfl, hc⟩ := List.append_inj' (Option.some.inj (hp.symm.trans hp')) rfl
  cases hc
  rw [h.unique hn hn']

end Spells
end Trie

namespace PatternIndex
open Text
variable {P : Type} {index : PatternIndex P} {kept : List (Text × P)} {paths : List Text}
  {n k : Nat}

def leadingParts (keys : List Text) : List Text :=
  ((keys.flatMap List.inits).filter (· ≠ [])).dedup

theorem mem_leadingParts {keys : List Text} {p : Text} :
    p ∈ leadingParts keys ↔ p ≠ [] ∧ ∃ key ∈ keys, p <+: key := by
  simp [leadingParts, and_comm]

/-- The nodes of an index make up the prefix tree of some texts, and its terminals number them. -/
structure IsArena (index : PatternIndex P) (keys : List Text) : Prop where
  ascending : index.trie.Ascending
  forward {n m : Nat} {c : Char} : (c, m) ∈ index.trie.edges n → n < m ∧ m < index.nodeCount
  parent (m : Nat) : 0 < m → m < index.nodeCount →
    ∃! edge : Nat × Char, (edge.2, m) ∈ index.trie.edges edge.1
  root (n : Nat) (c : Char) : (c, 0) ∉ index.trie.edges n
  leaf (n : Nat) : 0 < n → n < index.nodeCount → index.trie.edges n = [] →
    (index.trie.terminal? n).isSome = true
  root_terminal : index.trie.terminal? 0 = none
  ordinal (k : Nat) : k < index.size → ∃! n, index.trie.terminal? n = some k
  ordinal_lt {n k : Nat} : index.trie.terminal? n = some k → k < index.size
  nodeCount_eq : index.nodeCount = 1 + (leadingParts keys).length

theorem ascending_add (h : index.trie.Ascending) (text : Text) (payload : P) :
    (index.add text payload).1.trie.Ascending := by
  unfold add
  split
  · exact h
  · dsimp only
    split
    · exact h.growPath 0 _
    · exact (h.growPath 0 _).mark _ _

theorem ascending_ofList (words : WordChars) (calls : List (Text × P)) :
    (ofList words calls).trie.Ascending := by
  induction calls using List.reverseRecOn with
  | nil => exact .new
  | append_singleton calls call ih =>
    rw [ofList_concat]
    exact ascending_add ih call.1 call.2

/-- The nodes of an index spell the leading parts of the accepted case folds. What is refused adds
none. -/
theorem spells_registered (words : WordChars) (calls : List (Text × P)) :
    ∃ paths, (ofList words calls).trie.Spells paths ∧
      ∀ p, p ∈ paths ↔
        p = [] ∨ ∃ key ∈ (registered calls).map (foldCase ∘ Prod.fst), p <+: key := by
  obtain ⟨paths, hs, hmem⟩ := spells_ofList words calls
  refine ⟨paths, hs, fun p => (hmem p).trans (or_congr_right' fun hp => ?_)⟩
  simp only [registered, mem_map_keepFirst_iff]
  constructor
  · rintro ⟨key, hkey, hpart⟩
    obtain ⟨call, hcall, rfl⟩ := List.mem_map.mp hkey
    have hne : call.1 ≠ [] := by
      rintro he
      rw [Function.comp_apply, he, foldCase_nil, List.prefix_nil] at hpart
      exact hp hpart
    exact ⟨_, List.mem_map.mpr ⟨call, List.mem_filter.mpr ⟨hcall, by simpa using hne⟩, rfl⟩, hpart⟩
  · rintro ⟨key, hkey, hpart⟩
    obtain ⟨call, hcall, rfl⟩ := List.mem_map.mp hkey
    exact ⟨_, List.mem_map.mpr ⟨call, List.mem_of_mem_filter hcall, rfl⟩, hpart⟩

theorem nodeCount_of_spells (hs : index.trie.Spells paths) {keys : List Text}
    (hspelled : ∀ p, p ∈ paths ↔ p = [] ∨ ∃ key ∈ keys, p <+: key) :
    index.nodeCount = 1 + (leadingParts keys).length := by
  have hnodup : ([] :: leadingParts keys).Nodup :=
    List.nodup_cons.mpr ⟨fun h => (mem_leadingParts.mp h).1 rfl, List.nodup_dedup _⟩
  have hperm : paths.Perm ([] :: leadingParts keys) := by
    rw [List.perm_ext_iff_of_nodup hs.nodup hnodup]
    intro p
    rw [hspelled, List.mem_cons, mem_leadingParts]
    exact or_congr_right' fun hp => ⟨fun h => ⟨hp, h⟩, And.right⟩
  rw [nodeCount, ← hs.length_eq, hperm.length_eq, List.length_cons, Nat.add_comm]

section Terminals
variable (hr : Registers index kept) (hs : index.trie.Spells paths)
include hr hs

theorem Registers.terminal?_eq {p : Text} (hp : paths[n]? = some p) :
    index.trie.terminal? n = kept.findIdx? fun call => foldCase call.1 == p :=
  (hs.terminal?_of_path hp).trans (hr.stored p)

/-- What stands at a node is the ordinal of the accepted text that the node spells. -/
theorem Registers.path_of_terminal? (hn : index.trie.terminal? n = some k) :
    ∃ call, kept[k]? = some call ∧ paths[n]? = some (foldCase call.1) := by
  have hlt : n < index.trie.nodes.size := by
    by_contra hge
    rw [Trie.terminal?, Array.getElem?_eq_none (Nat.le_of_not_lt hge)] at hn
    cases hn
  obtain ⟨p, hp⟩ := hs.exists_path hlt
  obtain ⟨call, hcall, rfl, -⟩ := hr.stored_call ((hs.terminal?_of_path hp).symm.trans hn)
  exact ⟨call, hcall, hp⟩

theorem Registers.terminal?_root (hne : ∀ call ∈ kept, call.1 ≠ []) :
    index.trie.terminal? 0 = none := by
  rw [hr.terminal?_eq hs hs.root, List.findIdx?_eq_none_iff]
  intro call hcall
  simpa using hne call hcall

variable (hspelled : ∀ p, p ∈ paths ↔
  p = [] ∨ ∃ key ∈ kept.map (foldCase ∘ Prod.fst), p <+: key)
include hspelled

/-- A node that no edge leaves spells the whole of an accepted case fold. -/
theorem Registers.terminal?_leaf (ha : index.trie.Ascending) (hpos : 0 < n)
    (hn : n < index.trie.nodes.size) (hleaf : index.trie.edges n = []) :
    (index.trie.terminal? n).isSome = true := by
  obtain ⟨p, hp⟩ := hs.exists_path hn
  obtain ⟨key, hkey, q, rfl⟩ :=
    ((hspelled p).mp (List.mem_of_getElem? hp)).resolve_left (hs.path_ne_nil hp hpos)
  cases q with
  | nil =>
    obtain ⟨call, hcall, he⟩ := List.mem_map.mp hkey
    rw [hr.terminal?_eq hs hp, List.findIdx?_isSome, List.any_eq_true]
    exact ⟨call, hcall, by simpa using he⟩
  | cons c q =>
    have hlonger : p ++ [c] ∈ paths := (hspelled _).mpr (.inr ⟨_, hkey, q, by simp⟩)
    obtain ⟨m, hm⟩ := List.mem_iff_getElem?.mp hlonger
    have hedge := (hs.mem_edges_iff ha).mpr ⟨p, hp, hm⟩
    rw [hleaf] at hedge
    cases hedge

theorem Registers.existsUnique_terminal (hnodup : (kept.map (foldCase ∘ Prod.fst)).Nodup)
    (hk : k < kept.length) : ∃! n, index.trie.terminal? n = some k := by
  have hkey : foldCase kept[k].1 ∈ kept.map (foldCase ∘ Prod.fst) :=
    List.mem_map_of_mem (List.getElem_mem hk)
  obtain ⟨n, hn⟩ := List.mem_iff_getElem?.mp
    ((hspelled _).mpr (.inr ⟨_, hkey, List.prefix_rfl⟩))
  refine ⟨n, ?_, fun n' hn' => ?_⟩
  · have hpairwise := List.pairwise_map.mp hnodup
    dsimp only
    rw [hr.terminal?_eq hs hn, List.findIdx?_eq_some_iff_getElem]
    refine ⟨hk, beq_self_eq_true _, fun j hj he => ?_⟩
    exact List.pairwise_iff_getElem.mp hpairwise j k (hj.trans hk) hk hj (beq_iff_eq.mp he)
  · obtain ⟨call, hcall, hp⟩ := hr.path_of_terminal? hs hn'
    rw [List.getElem?_eq_getElem hk] at hcall
    cases hcall
    exact hs.unique hp hn

end Terminals

/-- Registering texts one after another makes a prefix tree of the case folds that are accepted,
whatever is refused between them. Its number of nodes does not depend on the order. -/
theorem ofList_isArena (words : WordChars) (calls : List (Text × P)) :
    IsArena (ofList words calls) ((accepted { words } calls).map (foldCase ∘ Prod.fst)) ∧
    ∀ other : List (Text × P),
      (calls.map (foldCase ∘ Prod.fst)).Perm (other.map (foldCase ∘ Prod.fst)) →
      (ofList words calls).nodeCount = (ofList words other).nodeCount := by
  obtain ⟨paths, hs, hspelled⟩ := spells_registered words calls
  have hr := registers_ofList words calls
  have ha := ascending_ofList words calls
  have hsize : (ofList words calls).size = (registered calls).length := by
    simp [size, hr.literals]
  have hne (call : Text × P) (hcall : call ∈ registered calls) : call.1 ≠ [] := by
    have hmem := (keepFirst_sublist _).subset hcall
    simpa using (List.mem_filter.mp hmem).2
  rw [accepted_new]
  refine ⟨⟨ha, hs.edge_forward ha, fun m => hs.existsUnique_edge ha, fun n c he => ?_,
    fun n => hr.terminal?_leaf hs hspelled ha, hr.terminal?_root hs hne, fun k hk => ?_,
    fun {n k} hn => ?_, nodeCount_of_spells hs hspelled⟩, fun other h => nodeCount_perm h words⟩
  · exact Nat.not_lt_zero n (hs.edge_forward ha he).1
  · exact hr.existsUnique_terminal hs hspelled (keepFirst_nodup _) (hsize ▸ hk)
  · obtain ⟨call, hcall, -⟩ := hr.path_of_terminal? hs hn
    exact hsize ▸ (List.getElem?_eq_some_iff.mp hcall).1

example :
    let index := ofList {} [("ba".toList, 1), ("B".toList, 2), ("Ba".toList, 3), ("a".toList, 4)]
    (index.trie.edges 0, index.trie.terminal? 1, index.nodeCount) =
      ([('a', 3), ('b', 1)], some 1, 4) := by decide

end PatternIndex
end Gloss
