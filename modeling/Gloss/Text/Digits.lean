import Gloss.Text.Basic

/-! Digits and the numbers they spell. Only ASCII digits count. -/
namespace Gloss.Text

/-- One more than the greatest number of 64 bits. -/
def wordLimit : Nat :=
  0x10000000000000000

def hexDigit? (c : Char) : Option Nat :=
  if c.isDigit then some (c.toNat - '0'.toNat)
  else if 'a' ≤ c && c ≤ 'f' then some (c.toNat - 'a'.toNat + 10)
  else if 'A' ≤ c && c ≤ 'F' then some (c.toNat - 'A'.toNat + 10)
  else none

def digit? (base : Nat) (c : Char) : Option Nat :=
  (hexDigit? c).filter (· < base)

/-- The number that a run of digits spells in a base. An empty run spells zero. -/
def ofDigits? (base : Nat) (digits : Text) : Option Nat :=
  digits.foldlM (fun value c => (digit? base c).map (value * base + ·)) 0

end Gloss.Text
