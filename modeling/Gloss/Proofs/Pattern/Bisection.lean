import Gloss.Proofs.Pattern.Arena

/-! Edges in ascending order, searched by bisection. It finds the edge of a character, or the place
where a new edge keeps the order. Any search that does so gives what the tree gives when it is
walked and grown. -/
namespace Gloss.Trie
variable {trie : Trie} {children : List (Char × Nat)} {c : Char} {n : Nat}

/-- The place of a character among the edges from `low` to `high`, or else the place where an edge
for it belongs. -/
def bisect (children : List (Char × Nat)) (c : Char) (low high : Nat) : Except Nat Nat :=
  if low < high then
    match children[(low + high) / 2]? with
    | none => .error low
    | some edge =>
      if edge.1.toNat < c.toNat then bisect children c ((low + high) / 2 + 1) high
      else if c.toNat < edge.1.toNat then bisect children c low ((low + high) / 2)
      else .ok ((low + high) / 2)
  else .error low
termination_by high - low

/-- What a search in ascending order may answer. -/
inductive Located (children : List (Char × Nat)) (c : Char) : Except Nat Nat → Prop where
  | found {place target : Nat} (h : children[place]? = some (c, target)) :
      Located children c (.ok place)
  | missing {place : Nat} (hbefore : ∀ edge ∈ children.take place, edge.1.toNat < c.toNat)
      (hbehind : ∀ edge ∈ children.drop place, c.toNat < edge.1.toNat) :
      Located children c (.error place)

section Ascending
variable (h : children.Pairwise fun a b => a.1.toNat < b.1.toNat)
include h

private theorem before_of_getElem? {place : Nat} {edge : Char × Nat}
    (hedge : children[place]? = some edge) (hlt : edge.1.toNat < c.toNat) :
    ∀ other ∈ children.take (place + 1), other.1.toNat < c.toNat := by
  have hsplit : children.take (place + 1) = children.take place ++ [edge] := by
    rw [List.take_add_one, hedge, Option.toList_some]
  have hsorted := h.sublist (List.take_sublist (place + 1) children)
  rw [hsplit] at hsorted ⊢
  refine List.forall_mem_append.mpr ⟨fun other hother => ?_, List.forall_mem_singleton.mpr hlt⟩
  exact Nat.lt_trans
    ((List.pairwise_append.mp hsorted).2.2 other hother edge List.mem_cons_self) hlt

private theorem behind_of_getElem? {place : Nat} {edge : Char × Nat}
    (hedge : children[place]? = some edge) (hlt : c.toNat < edge.1.toNat) :
    ∀ other ∈ children.drop place, c.toNat < other.1.toNat := by
  obtain ⟨hplace, rfl⟩ := List.getElem?_eq_some_iff.mp hedge
  have hsorted := h.sublist (List.drop_sublist place children)
  rw [List.drop_eq_getElem_cons hplace] at hsorted ⊢
  refine List.forall_mem_cons.mpr ⟨hlt, fun other hother => ?_⟩
  exact Nat.lt_trans hlt ((List.pairwise_cons.mp hsorted).1 other hother)

theorem located_bisect {low high : Nat} (hhigh : high ≤ children.length)
    (hbefore : ∀ edge ∈ children.take low, edge.1.toNat < c.toNat)
    (hbehind : ∀ edge ∈ children.drop high, c.toNat < edge.1.toNat) (hle : low ≤ high) :
    Located children c (bisect children c low high) := by
  fun_induction bisect children c low high with
  | case1 low high hlt hnone =>
    have hlength := List.getElem?_eq_none_iff.mp hnone
    omega
  | case2 low high hlt edge hedge hless ih =>
    exact ih hhigh (before_of_getElem? h hedge hless) hbehind (by omega)
  | case3 low high hlt edge hedge _ hgreater ih =>
    exact ih (by omega) hbefore (behind_of_getElem? h hedge hgreater) (by omega)
  | case4 low high hlt edge hedge hless hgreater =>
    obtain ⟨first, target⟩ := edge
    obtain rfl : first = c := Char.toNat_inj.mp
      (Nat.le_antisymm (Nat.not_lt.mp hgreater) (Nat.not_lt.mp hless))
    exact .found hedge
  | case5 low high hlt =>
    obtain rfl : low = high := by omega
    exact .missing hbefore hbehind

theorem lookup_of_found {place target : Nat} (hplace : children[place]? = some (c, target)) :
    children.lookup c = some target :=
  (lookup_eq_some_iff_mem h).mpr (List.mem_of_getElem? hplace)

end Ascending

section Missing
variable {before behind : List (Char × Nat)} (hbefore : ∀ edge ∈ before, edge.1.toNat < c.toNat)
  (hbehind : ∀ edge ∈ behind, c.toNat < edge.1.toNat)
include hbefore hbehind

theorem insertEdge_append (target : Nat) :
    insertEdge c target (before ++ behind) = before ++ (c, target) :: behind := by
  induction before with
  | nil =>
    cases behind with
    | nil => rfl
    | cons edge behind => exact if_pos (hbehind edge List.mem_cons_self)
  | cons edge before ih =>
    obtain ⟨hedge, hbefore⟩ := List.forall_mem_cons.mp hbefore
    rw [List.cons_append, insertEdge, if_neg (Nat.lt_asymm hedge), ih hbefore]
    rfl

theorem lookup_of_missing : (before ++ behind).lookup c = none := by
  rw [List.lookup_eq_none_iff]
  intro edge hedge
  refine bne_iff_ne.mpr fun he => ?_
  subst he
  rcases List.mem_append.mp hedge with hmem | hmem
  · exact Nat.lt_irrefl _ (hbefore edge hmem)
  · exact Nat.lt_irrefl _ (hbehind edge hmem)

end Missing

/-- A search among the edges of a node gives the child that the tree gives for the character, or the
place at which the tree puts a new edge. -/
def Fits (trie : Trie) (n : Nat) (c : Char) : Except Nat Nat → Prop
  | .ok place =>
    trie.child? n c = (trie.edges n)[place]?.map Prod.snd ∧ (trie.grow n c).1 = trie
  | .error place =>
    trie.child? n c = none ∧ insertEdge c trie.nodes.size (trie.edges n) =
      (trie.edges n).take place ++ (c, trie.nodes.size) :: (trie.edges n).drop place

theorem fits_of_located (h : trie.Ascending) {answer : Except Nat Nat}
    (hlocated : Located (trie.edges n) c answer) : trie.Fits n c answer := by
  cases hlocated with
  | @found place target hplace =>
    have hchild : trie.child? n c = some target := by
      rw [child?_eq_lookup, lookup_of_found (h n) hplace]
    refine ⟨?_, ?_⟩
    · rw [hplace, hchild]
      rfl
    · rw [grow_of_child hchild]
  | missing hbefore hbehind =>
    have hchild := lookup_of_missing hbefore hbehind
    have hinsert := insertEdge_append hbefore hbehind trie.nodes.size
    rw [List.take_append_drop] at hchild hinsert
    exact ⟨(child?_eq_lookup trie n c).trans hchild, hinsert⟩

/-- Where edges stand in order they can be searched by bisection. -/
theorem fits_bisect (h : trie.Ascending) (n : Nat) (c : Char) :
    trie.Fits n c (bisect (trie.edges n) c 0 (trie.edges n).length) :=
  fits_of_located h (located_bisect (h n) (Nat.le_refl _) (by simp) (by simp) (Nat.zero_le _))

theorem fits_bisect_ofList {P : Type} (words : WordChars) (calls : List (Text × P)) (n : Nat)
    (c : Char) :
    let trie := (PatternIndex.ofList words calls).trie
    trie.Fits n c (bisect (trie.edges n) c 0 (trie.edges n).length) :=
  fits_bisect (PatternIndex.ascending_ofList words calls) n c

end Gloss.Trie
