import Gloss.Proofs.Pattern.LeftmostLongest

/-! Searching a text that a separator cuts in two. A separator is no word character, and nothing
known holds it; what is found before it and behind it is what is found in the two parts. -/
namespace Gloss
open Text
variable {P : Type}

def Match.shift (found : Match P) (bytes : Nat) : Match P :=
  { found with start := found.start + bytes, stop := found.stop + bytes }

section Search
variable {words : WordChars} {lookup : Text → Option P} {c : Char}

/-- The search only asks whether the place behind the previous character is a boundary. -/
theorem leftmostLongest_congr {previous previous' : Option Char}
    (h : words.isBoundary previous = words.isBoundary previous') (offset : Nat) (text : Text) :
    leftmostLongest words lookup previous offset text =
      leftmostLongest words lookup previous' offset text := by
  cases text with
  | nil => rw [leftmostLongest, leftmostLongest]
  | cons first rest => rw [leftmostLongest, leftmostLongest, h]

theorem leftmostLongest_shift (previous : Option Char) (offset bytes : Nat) (text : Text) :
    leftmostLongest words lookup previous (offset + bytes) text =
      (leftmostLongest words lookup previous offset text).map (·.shift bytes) := by
  induction previous, offset, text using leftmostLongest.induct words lookup with
  | case1 previous offset => simp [leftmostLongest]
  | case2 previous offset first rest hnone ih =>
    rw [dite_eq_ite] at hnone
    rw [leftmostLongest, leftmostLongest, hnone]
    dsimp only
    rw [← ih, Nat.add_right_comm]
  | case3 previous offset first rest k payload hsome part =>
    rename_i ih
    rw [dite_eq_ite] at hsome
    rw [leftmostLongest, leftmostLongest, hsome]
    dsimp only
    rw [List.map_cons, ← ih, Nat.add_right_comm]
    rfl

variable (hword : words.isWordChar c = false) (hlookup : ∀ part, c ∈ part → lookup part = none)
include hword hlookup

/-- No known part reaches over the separator, and one may end at it. -/
theorem longest?_append_separator (text rest : Text) :
    longest? words lookup (text ++ c :: rest) = longest? words lookup text := by
  have hlength : (text ++ c :: rest).length = text.length + (rest.length + 1) := by simp
  have hover : (((List.range (rest.length + 1)).map (text.length + ·)).reverse.findSome? fun k =>
      if words.isBoundary ((text ++ c :: rest).drop (k + 1)).head? then
        (lookup ((text ++ c :: rest).take (k + 1))).map (k, ·)
      else none) = none := by
    rw [List.findSome?_eq_none_iff]
    intro k hk
    obtain ⟨l, -, rfl⟩ := List.mem_map.mp (List.mem_reverse.mp hk)
    have hmem : c ∈ (text ++ c :: rest).take (text.length + l + 1) := by
      rw [Nat.add_assoc, List.take_length_add_append, List.take_succ_cons]
      simp
    rw [hlookup _ hmem]
    simp
  unfold longest?
  rw [hlength, List.range_add, List.reverse_append, List.findSome?_append, hover, Option.none_or,
    ← List.head?_filterMap, ← List.head?_filterMap]
  refine congrArg List.head? (List.filterMap_congr fun k hk => ?_)
  have hlt := List.mem_range.mp (List.mem_reverse.mp hk)
  have hnext : words.isBoundary ((text ++ c :: rest).drop (k + 1)).head? =
      words.isBoundary (text.drop (k + 1)).head? := by
    rw [List.drop_append_of_le_length hlt]
    cases text.drop (k + 1) with
    | nil => simp [WordChars.isBoundary, hword]
    | cons next _ => rfl
  rw [hnext, List.take_append_of_le_length hlt]

/-- What is found in a text is what is found before a separator and what is found behind it. -/
theorem leftmostLongest_append_separator (previous : Option Char) (offset : Nat)
    (text rest : Text) :
    leftmostLongest words lookup previous offset (text ++ c :: rest) =
      leftmostLongest words lookup previous offset text ++
        leftmostLongest words lookup none (offset + byteLength text + c.utf8Size) rest := by
  induction previous, offset, text using leftmostLongest.induct words lookup with
  | case1 previous offset =>
    have hnone : longest? words lookup (c :: rest) = none :=
      longest?_append_separator hword hlookup [] rest
    have hboundary : words.isBoundary (some c) = words.isBoundary none := by
      simp [WordChars.isBoundary, hword]
    have hsearch : (if words.isBoundary previous then longest? words lookup (c :: rest)
        else none) = none := by rw [hnone, ite_self]
    rw [List.nil_append, leftmostLongest, leftmostLongest, hsearch, List.nil_append]
    exact leftmostLongest_congr hboundary _ _
  | case2 previous offset first text hnone ih =>
    rw [dite_eq_ite] at hnone
    have hnone' := hnone
    rw [← longest?_append_separator hword hlookup _ rest, List.cons_append] at hnone'
    rw [List.cons_append, leftmostLongest, leftmostLongest, hnone, hnone', ih, byteLength_cons,
      ← Nat.add_assoc]
  | case3 previous offset first text k payload hsome part =>
    rename_i ih
    rw [dite_eq_ite] at hsome
    have hsome' := hsome
    rw [← longest?_append_separator hword hlookup _ rest, List.cons_append] at hsome'
    have hk : k ≤ text.length := by
      split at hsome
      · have hlt := (longest?_eq_some hsome).1
        rw [List.length_cons] at hlt
        exact Nat.le_of_lt_succ hlt
      · cases hsome
    have hbytes : byteLength (first :: text) = byteLength part + byteLength (text.drop k) := by
      rw [← byteLength_append, List.cons_append, List.take_append_drop]
    rw [List.cons_append, leftmostLongest, leftmostLongest, hsome, hsome']
    dsimp only
    rw [List.take_append_of_le_length hk, List.drop_append_of_le_length hk, ih, hbytes]
    simp only [List.cons_append, Nat.add_assoc]
    rfl

end Search
end Gloss
