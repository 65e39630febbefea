import Gloss.Text.Basic

/-! Sets of characters as lists of ranges of code points. -/
namespace Gloss.Text

/-- A range of code points, both ends included. -/
abbrev CodeRange := Nat × Nat

def inRanges (ranges : List CodeRange) (c : Char) : Bool :=
  ranges.any fun range => range.1 ≤ c.toNat && c.toNat ≤ range.2

end Gloss.Text
