import Gloss.Proofs.Text.Fold
import Gloss.Proofs.Text.Lines

/-! Texts cut by byte offsets, with every cut checked. A cut outside the text or inside a character
is a trap, and so is a byte that is not there; what is cut out comes with the proof of where it
stood. -/
namespace Gloss.Text

/-- Why a checked operation gives up. -/
inductive Trap where
  /-- The ends of a slice are in the wrong order, or one of them is no boundary of characters. -/
  | slice (start stop : Nat)
  | index (place : Nat)
  | underflow
  deriving DecidableEq, Repr

/-- The offset is that of a character of the text or of its end. -/
def IsCharBoundary (t : Text) (offset : Nat) : Prop :=
  ∃ before behind, t = before ++ behind ∧ offset = byteLength before

/-- The part stands in the text from one offset up to the other. -/
def IsSlice (t : Text) (start stop : Nat) (part : Text) : Prop :=
  ∃ before behind, t = before ++ part ++ behind ∧ start = byteLength before ∧
    stop = byteLength (before ++ part)

section Boundaries
variable {t part : Text} {start stop : Nat}

theorem isCharBoundary_iff {offset : Nat} :
    IsCharBoundary t offset ↔ byteLength (splitAtByte offset t).1 = offset := by
  constructor
  · rintro ⟨before, behind, rfl, rfl⟩
    rw [splitAtByte_byteLength]
  · intro h
    exact ⟨_, _, (splitAtByte_append offset t).symm, h.symm⟩

instance (t : Text) (offset : Nat) : Decidable (IsCharBoundary t offset) :=
  decidable_of_iff _ isCharBoundary_iff.symm

theorem IsCharBoundary.le {offset : Nat} (h : IsCharBoundary t offset) : offset ≤ byteLength t := by
  obtain ⟨before, behind, rfl, rfl⟩ := h
  rw [byteLength_append]
  exact Nat.le_add_right _ _

theorem IsSlice.isCharBoundary (h : IsSlice t start stop part) :
    IsCharBoundary t start ∧ IsCharBoundary t stop := by
  obtain ⟨before, behind, rfl, rfl, rfl⟩ := h
  exact ⟨⟨before, part ++ behind, List.append_assoc _ _ _, rfl⟩, before ++ part, behind, rfl, rfl⟩

theorem IsSlice.byteLength_add (h : IsSlice t start stop part) :
    byteLength part + start = stop := by
  obtain ⟨before, behind, -, rfl, rfl⟩ := h
  rw [byteLength_append, Nat.add_comm]

theorem IsSlice.le (h : IsSlice t start stop part) : start ≤ stop :=
  h.byteLength_add ▸ Nat.le_add_left _ _

theorem IsSlice.unique {part' : Text} (h : IsSlice t start stop part)
    (h' : IsSlice t start stop part') : part = part' := by
  obtain ⟨before, behind, rfl, rfl, rfl⟩ := h
  obtain ⟨before', behind', he, hstart, hstop⟩ := h'
  rw [List.append_assoc, List.append_assoc] at he
  obtain ⟨rfl, hrest⟩ := append_inj_of_byteLength he hstart
  rw [byteLength_append, byteLength_append] at hstop
  exact (append_inj_of_byteLength hrest (Nat.add_left_cancel hstop)).1

theorem exists_isSlice (hle : start ≤ stop) (hstart : IsCharBoundary t start)
    (hstop : IsCharBoundary t stop) : ∃ part, IsSlice t start stop part := by
  obtain ⟨before, behind, rfl, rfl⟩ := hstart
  obtain ⟨before', behind', he, rfl⟩ := hstop
  rcases List.append_eq_append_iff.mp he with ⟨part, rfl, rfl⟩ | ⟨part, rfl, rfl⟩
  · exact ⟨part, before, behind', (List.append_assoc _ _ _).symm, rfl, rfl⟩
  · -- The second boundary comes first only when the two are one.
    rw [byteLength_append] at hle
    have hempty : part = [] := by
      by_contra hne
      have := byteLength_pos hne
      omega
    subst hempty
    exact ⟨[], before', behind, by simp, by simp, by simp⟩

theorem isSlice_splitAtByte (hle : start ≤ stop) (hstart : IsCharBoundary t start)
    (hstop : IsCharBoundary t stop) :
    IsSlice t start stop (splitAtByte (stop - start) (splitAtByte start t).2).1 := by
  obtain ⟨part, h⟩ := exists_isSlice hle hstart hstop
  have hpart : (splitAtByte (stop - start) (splitAtByte start t).2).1 = part := by
    obtain ⟨before, behind, rfl, rfl, rfl⟩ := h
    rw [List.append_assoc, splitAtByte_byteLength, byteLength_append, Nat.add_sub_cancel_left,
      splitAtByte_byteLength]
  rwa [hpart]

end Boundaries

section Slicing

/-- The part of a text between two offsets. -/
def slice (t : Text) (start stop : Nat) : Except Trap {part : Text // IsSlice t start stop part} :=
  if h : start ≤ stop ∧ IsCharBoundary t start ∧ IsCharBoundary t stop then
    .ok ⟨_, isSlice_splitAtByte h.1 h.2.1 h.2.2⟩
  else .error (.slice start stop)

def sliceFrom (t : Text) (start : Nat) :
    Except Trap {part : Text // IsSlice t start (byteLength t) part} :=
  slice t start (byteLength t)

def sliceTo (t : Text) (stop : Nat) : Except Trap {part : Text // IsSlice t 0 stop part} :=
  slice t 0 stop

def byteAt (t : Text) (place : Nat) : Except Trap UInt8 :=
  match (utf8 t)[place]? with
  | some byte => .ok byte
  | none => .error (.index place)

def decrement : Nat → Except Trap Nat
  | 0 => .error .underflow
  | n + 1 => .ok n

theorem ok_bind {α β : Type} (a : α) (f : α → Except Trap β) : (Except.ok a >>= f) = f a := rfl

theorem slice_eq_ok {t part : Text} {start stop : Nat} (h : IsSlice t start stop part) :
    slice t start stop = .ok ⟨part, h⟩ := by
  have hcut := isSlice_splitAtByte h.le h.isCharBoundary.1 h.isCharBoundary.2
  rw [slice, dif_pos ⟨h.le, h.isCharBoundary⟩]
  congr 2
  exact hcut.unique h

theorem isSlice_from (s t : Text) : IsSlice (s ++ t) (byteLength s) (byteLength (s ++ t)) t :=
  ⟨s, [], (List.append_nil _).symm, rfl, rfl⟩

theorem isSlice_to (s t : Text) : IsSlice (s ++ t) 0 (byteLength s) s :=
  ⟨[], t, rfl, rfl, rfl⟩

theorem sliceFrom_append (s t : Text) :
    sliceFrom (s ++ t) (byteLength s) = .ok ⟨t, isSlice_from s t⟩ :=
  slice_eq_ok (isSlice_from s t)

theorem sliceTo_append (s t : Text) :
    sliceTo (s ++ t) (byteLength s) = .ok ⟨s, isSlice_to s t⟩ :=
  slice_eq_ok (isSlice_to s t)

theorem length_utf8 (t : Text) : (utf8 t).length = byteLength t := by
  induction t with
  | nil => rfl
  | cons c t ih => rw [utf8_cons, List.length_append, ih, String.length_utf8EncodeChar,
      byteLength_cons]

theorem byteAt_append {c : Char} {byte : UInt8} (hc : String.utf8EncodeChar c = [byte])
    (s t : Text) : byteAt (s ++ c :: t) (byteLength s) = .ok byte := by
  rw [byteAt, utf8_append, utf8_cons, hc, ← length_utf8, List.getElem?_append_right (Nat.le_refl _),
    Nat.sub_self]
  rfl

example : slice ['a', 'é', 'b'] 1 3 = .ok ⟨['é'], ['a'], ['b'], rfl, rfl, rfl⟩ ∧
    slice ['a', 'é', 'b'] 1 2 = .error (.slice 1 2) := by
  exact ⟨rfl, rfl⟩

end Slicing

section Searching

def offsetWhere? (p : Char → Bool) : Text → Option Nat
  | [] => none
  | c :: rest => if p c then some 0 else (offsetWhere? p rest).map (c.utf8Size + ·)

def offsetOf? (pattern : Text) : Text → Option Nat
  | [] => if pattern.isEmpty then some 0 else none
  | c :: rest =>
    if pattern.isPrefixOf (c :: rest) then some 0 else (offsetOf? pattern rest).map (c.utf8Size + ·)

theorem offsetWhere?_of_forall {p : Char → Bool} {t : Text} (h : ∀ c ∈ t, p c = false) :
    offsetWhere? p t = none := by
  induction t with
  | nil => rfl
  | cons c t ih =>
    obtain ⟨hc, ht⟩ := List.forall_mem_cons.mp h
    rw [offsetWhere?, hc, ih ht]
    rfl

theorem offsetWhere?_append {p : Char → Bool} {before : Text} (h : ∀ c ∈ before, p c = false)
    {c : Char} (hc : p c = true) (rest : Text) :
    offsetWhere? p (before ++ c :: rest) = some (byteLength before) := by
  induction before with
  | nil => rw [List.nil_append, offsetWhere?, if_pos hc]; rfl
  | cons d before ih =>
    obtain ⟨hd, hbefore⟩ := List.forall_mem_cons.mp h
    rw [List.cons_append, offsetWhere?, hd, ih hbefore]
    rfl

theorem forall_or_exists_first (p : Char → Bool) (t : Text) : (∀ c ∈ t, p c = false) ∨
    ∃ before c rest, t = before ++ c :: rest ∧ (∀ d ∈ before, p d = false) ∧ p c = true := by
  induction t with
  | nil => exact .inl (List.forall_mem_nil _)
  | cons c t ih =>
    cases hc : p c with
    | true => exact .inr ⟨[], c, t, rfl, List.forall_mem_nil _, hc⟩
    | false =>
      rcases ih with h | ⟨before, d, rest, rfl, hbefore, hd⟩
      · exact .inl (List.forall_mem_cons.mpr ⟨hc, h⟩)
      · exact .inr ⟨c :: before, d, rest, rfl, List.forall_mem_cons.mpr ⟨hc, hbefore⟩, hd⟩

/-- A text lacks a character, or is cut at the first one. -/
theorem offset_cases (c : Char) (t : Text) : (c ∉ t ∧ offsetWhere? (· == c) t = none) ∨
    ∃ before rest, t = before ++ c :: rest ∧ c ∉ before ∧
      offsetWhere? (· == c) t = some (byteLength before) := by
  rcases forall_or_exists_first (· == c) t with h | ⟨before, d, rest, rfl, hbefore, hd⟩
  · refine .inl ⟨fun hc => ?_, offsetWhere?_of_forall h⟩
    simpa using h c hc
  · refine .inr ⟨before, rest, ?_, fun hc => ?_, offsetWhere?_append hbefore hd rest⟩
    · rw [beq_iff_eq.mp hd]
    · simpa using hbefore c hc

end Searching
end Gloss.Text
