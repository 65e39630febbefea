import Gloss.Proofs.Text.Fold
import Gloss.Text.Blank
import Gloss.Text.CodeRange
import Mathlib.Data.List.DropRight
import Mathlib.Data.List.TakeWhile

/-! Trimming and words. A text is blank when trimming leaves nothing of it. Lowercasing makes no
white space, so that the case fold of a trimmed text is trimmed. -/
namespace Gloss.Text

section White
variable {c d : Char}

def whiteRanges : List CodeRange :=
  [(0x9, 0xD), (0x20, 0x20), (0x85, 0x85), (0xA0, 0xA0), (0x1680, 0x1680), (0x2000, 0x200A),
   (0x2028, 0x2029), (0x202F, 0x202F), (0x205F, 0x205F), (0x3000, 0x3000)]

theorem isWhite_iff :
    isWhite c = true ↔ ∃ range ∈ whiteRanges, range.1 ≤ c.toNat ∧ c.toNat ≤ range.2 := by
  simp only [isWhite, whiteRanges, Bool.or_eq_true, Bool.and_eq_true, decide_eq_true_eq,
    beq_iff_eq, List.mem_cons, List.not_mem_nil, or_false, exists_eq_or_imp, ↓existsAndEq, true_and]
  omega

/-- The lowercase forms of the table lie outside white space. -/
theorem lowerRuns_disjoint : ∀ run ∈ lowerRuns, ∀ range ∈ whiteRanges,
    run.last + run.shift < range.1 ∨ range.2 < run.first + run.shift := by
  decide +kernel

private theorem toNat_ofNat (code : Nat) :
    (Char.ofNat code).toNat = code ∨ (Char.ofNat code).toNat = 0 := by
  by_cases h : code.isValidChar
  · left
    rw [Char.ofNat, dif_pos h]
    rfl
  · right
    rw [Char.ofNat, dif_neg h]
    rfl

private theorem isWhite_of_lower? {run : LowerRun} (hrun : run ∈ lowerRuns) {code code' : Nat}
    (h : run.lower? code = some code') : isWhite (Char.ofNat code') = false := by
  unfold LowerRun.lower? at h
  split at h
  · next hcode =>
    cases h
    simp only [Bool.and_eq_true, decide_eq_true_eq] at hcode
    rw [Bool.eq_false_iff, ne_eq, isWhite_iff]
    rintro ⟨range, hrange, hbounds⟩
    have hdisjoint := lowerRuns_disjoint run hrun range hrange
    have hpositive : ∀ range ∈ whiteRanges, 0 < range.1 := by decide
    have hfirst := hpositive range hrange
    rcases toNat_ofNat (code + run.shift).toNat with he | he <;> omega
  · cases h

private theorem isWhite_toLower : ∀ code : Fin 0x80,
    isWhite (Char.ofNat code) = false → isWhite (Char.ofNat code).toLower = false := by
  decide

/-- The lowercase form of a character other than white space holds none. -/
theorem isWhite_of_mem_lower (hc : isWhite c = false) (hd : d ∈ lower c) : isWhite d = false := by
  unfold lower at hd
  split_ifs at hd with hascii hdotted
  · have hlower := isWhite_toLower ⟨c.toNat, hascii⟩
    rw [Char.ofNat_toNat] at hlower
    rw [List.mem_singleton.mp hd]
    exact hlower hc
  · simp only [List.mem_cons, List.not_mem_nil, or_false] at hd
    rcases hd with rfl | rfl <;> rfl
  · rw [List.mem_singleton.mp hd]
    cases hfind : lowerRuns.findSome? (·.lower? c.toNat) with
    | none => exact hc
    | some code =>
      obtain ⟨run, hrun, hcode⟩ := List.exists_of_findSome?_eq_some hfind
      exact isWhite_of_lower? hrun hcode

end White

section Blank

private theorem isBlank_trimStart (t : Text) : isBlank (trimStart t) = isBlank t := by
  unfold isBlank trimStart
  conv_rhs => rw [← List.takeWhile_append_dropWhile (p := isWhite) (l := t), List.all_append]
  simp [List.all_takeWhile]

private theorem isBlank_trimEnd (t : Text) : isBlank (trimEnd t) = isBlank t := by
  rw [trimEnd, isBlank, List.all_reverse]
  exact (isBlank_trimStart t.reverse).trans List.all_reverse

@[simp] theorem isBlank_trim (t : Text) : isBlank (trim t) = isBlank t := by
  rw [trim, isBlank_trimEnd, isBlank_trimStart]

theorem trim_eq_nil_iff {t : Text} : trim t = [] ↔ isBlank t = true := by
  rw [← isBlank_trimStart, trim, trimEnd, List.reverse_eq_nil_iff, List.dropWhile_eq_nil_iff]
  simp [isBlank]

theorem nonBlank?_eq_some_iff {t s : Text} : nonBlank? t = some s ↔ trim t = s ∧ s ≠ [] := by
  unfold nonBlank?
  split
  · next h =>
    simp only [h, reduceCtorEq, false_iff]
    rintro ⟨rfl, hs⟩
    exact hs rfl
  · next h =>
    rw [Option.some.injEq]
    exact ⟨fun he => ⟨he, he ▸ h⟩, And.left⟩

end Blank

/-- Neither the first nor the last character is white space. -/
structure Trimmed (t : Text) : Prop where
  head : ∀ c ∈ t.head?, isWhite c = false
  last : ∀ c ∈ t.getLast?, isWhite c = false

section Trimmed
variable {t : Text}

theorem trimmed_of_forall (h : ∀ c ∈ t, isWhite c = false) : Trimmed t where
  head c hc := h c (List.mem_of_mem_head? hc)
  last c hc := h c (List.mem_of_mem_getLast? hc)

private theorem dropWhile_eq_self (h : ∀ c ∈ t.head?, isWhite c = false) :
    t.dropWhile isWhite = t := by
  cases t with
  | nil => rfl
  | cons c t => rw [List.dropWhile_cons_of_neg (Bool.eq_false_iff.mp (h c rfl))]

private theorem head?_dropWhile (t : Text) :
    ∀ c ∈ (t.dropWhile isWhite).head?, isWhite c = false := by
  intro c hc
  have hhead := List.head?_dropWhile_not isWhite t
  rw [hc] at hhead
  exact hhead

theorem Trimmed.trim_eq (h : Trimmed t) : trim t = t := by
  have hlast : ∀ c ∈ t.reverse.head?, isWhite c = false := by
    rw [List.head?_reverse]
    exact h.last
  rw [trim, trimStart, dropWhile_eq_self h.head, trimEnd, dropWhile_eq_self hlast,
    List.reverse_reverse]

theorem trimmed_trim (t : Text) : Trimmed (trim t) where
  head c hc := by
    obtain ⟨behind, hbehind⟩ : trim t <+: trimStart t := List.rdropWhile_prefix isWhite _
    have hfirst := List.mem_head?_append_of_mem_head? (t := behind) hc
    rw [hbehind] at hfirst
    exact head?_dropWhile t c hfirst
  last c hc := by
    rw [trim, trimEnd, List.getLast?_reverse] at hc
    exact head?_dropWhile _ c hc

theorem trimmed_of_trim_eq (h : trim t = t) : Trimmed t :=
  h ▸ trimmed_trim t

/-- Trimming a text that goes on behind a trimmed one takes from the end only, and leaves some of
what was added. -/
theorem Trimmed.trim_append {s : Text} (hs : Trimmed s) (hne : s ≠ []) (ht : isBlank t = false) :
    trim (s ++ t) = s ++ trimEnd t ∧ trimEnd t ≠ [] := by
  have hhead : ∀ c ∈ (s ++ t).head?, isWhite c = false := by
    rw [List.head?_append_of_ne_nil _ hne]
    exact hs.head
  have hrest : t.reverse.dropWhile isWhite ≠ [] := by
    intro he
    rw [List.dropWhile_eq_nil_iff] at he
    rw [isBlank, ← List.all_reverse, List.all_eq_true.mpr he] at ht
    cases ht
  constructor
  · rw [trim, trimStart, dropWhile_eq_self hhead, trimEnd, List.reverse_append,
      List.dropWhile_append, if_neg (by simpa using hrest), List.reverse_append,
      List.reverse_reverse]
    rfl
  · rw [trimEnd, ne_eq, List.reverse_eq_nil_iff]
    exact hrest

/-- A character at an end of the fold comes from the character at that end. -/
theorem Trimmed.foldCase (h : Trimmed t) : Trimmed (foldCase t) where
  head c hc := by
    cases t with
    | nil => cases hc
    | cons a t =>
      rw [foldCase_cons, List.head?_append_of_ne_nil _ (lower_ne_nil a)] at hc
      exact isWhite_of_mem_lower (h.head a rfl) (List.mem_of_mem_head? hc)
  last c hc := by
    rcases List.eq_nil_or_concat t with rfl | ⟨t, a, rfl⟩
    · cases hc
    · have ha := h.last a (by simp)
      rw [List.concat_eq_append, foldCase_append, foldCase_cons, foldCase_nil, List.append_nil,
        List.getLast?_append_of_ne_nil _ (lower_ne_nil a)] at hc
      exact isWhite_of_mem_lower ha (List.mem_of_mem_getLast? hc)

theorem firstWord?_append {gap word : Text} (hgap : ∀ c ∈ gap, isWhite c = true)
    (hne : word ≠ []) (hword : ∀ c ∈ word, isWhite c = false) :
    firstWord? (gap ++ word) = some word := by
  have htrim : trimStart (gap ++ word) = word := by
    rw [trimStart, List.dropWhile_append_of_pos hgap,
      dropWhile_eq_self (trimmed_of_forall hword).head]
  have htake : word.takeWhile (!isWhite ·) = word := by
    rw [List.takeWhile_eq_self_iff]
    intro c hc
    simp [hword c hc]
  rw [firstWord?, htrim, htake]
  cases word with
  | nil => exact absurd rfl hne
  | cons c word => rfl

end Trimmed
end Gloss.Text
