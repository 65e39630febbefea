/-! A text is the list of its Unicode scalar values. Offsets into a text count the bytes of its
UTF-8 form. -/
namespace Gloss

/-- A text, as its scalar values. -/
abbrev Text := List Char

namespace Text

def byteLength : Text → Nat
  | [] => 0
  | c :: rest => c.utf8Size + byteLength rest

/-- Cut a text at a byte offset. An offset inside a character cuts behind that character, one past
the end gives the whole text. -/
def splitAtByte (offset : Nat) : Text → Text × Text
  | [] => ([], [])
  | c :: rest =>
    if offset = 0 then ([], c :: rest)
    else
      let (before, behind) := splitAtByte (offset - c.utf8Size) rest
      (c :: before, behind)

@[simp] theorem byteLength_nil : byteLength [] = 0 := rfl

@[simp] theorem byteLength_cons (c : Char) (t : Text) :
    byteLength (c :: t) = c.utf8Size + byteLength t := rfl

@[simp] theorem byteLength_append (s t : Text) :
    byteLength (s ++ t) = byteLength s + byteLength t := by
  induction s with
  | nil => simp
  | cons c s ih => simp [ih, Nat.add_assoc]

theorem splitAtByte_append (offset : Nat) (t : Text) :
    (splitAtByte offset t).1 ++ (splitAtByte offset t).2 = t := by
  induction t generalizing offset with
  | nil => rfl
  | cons c t ih =>
    simp only [splitAtByte]
    split
    · rfl
    · simp [ih]

theorem splitAtByte_byteLength (s t : Text) : splitAtByte (byteLength s) (s ++ t) = (s, t) := by
  induction s with
  | nil => cases t <;> simp [splitAtByte, byteLength]
  | cons c s ih =>
    have positive := Char.utf8Size_pos c
    have inside : c.utf8Size + byteLength s ≠ 0 := by omega
    rw [List.cons_append, splitAtByte, byteLength, if_neg inside, Nat.add_sub_cancel_left, ih]

end Text
end Gloss
