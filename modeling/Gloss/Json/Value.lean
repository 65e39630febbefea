import Gloss.Decimal.Shortest
import Gloss.Text.Digits

/-! JSON values. Numbers keep their digits, for what they mean depends on who asks. -/
namespace Gloss.Json

/-- A number as written. Digits are values below ten. -/
structure Number where
  negative : Bool
  whole : List Nat
  fraction : Option (List Nat) := none
  /-- Whether the exponent is negative, and its digits. -/
  exponent : Option (Bool × List Nat) := none
  deriving DecidableEq, Repr

/-- A value. A string is `none` where it holds an unpaired surrogate, which no text can. -/
inductive Value where
  | null
  | bool (value : Bool)
  | number (value : Number)
  | text (value : Option Text)
  | array (items : List Value)
  | object (members : List (Option Text × Value))

namespace Number

/-- Append digits to a significand as long as it fits 64 bits. The digits that remain follow the
first one that does not fit. -/
def absorb (significand : Nat) : List Nat → Nat × List Nat
  | [] => (significand, [])
  | digit :: rest =>
    if significand * 10 + digit < Text.wordLimit then absorb (significand * 10 + digit) rest
    else (significand, digit :: rest)

def ofDigits (digits : List Nat) : Nat :=
  digits.foldl (fun value digit => value * 10 + digit) 0

/-- The value as an integer of 64 bits, signed or not. A number with a fraction or an exponent is
none, and neither is minus zero. -/
def integer? (number : Number) : Option Int :=
  let magnitude := ofDigits number.whole
  if number.fraction.isSome || number.exponent.isSome then none
  else if number.negative then
    if 0 < magnitude && magnitude ≤ Text.wordLimit / 2 then some (-magnitude) else none
  else if magnitude < Text.wordLimit then some magnitude else none

def natural? (number : Number) : Option Nat :=
  number.integer?.bind Int.toNat?

/-- A double times a power of ten. The scaling takes one rounded step, or several where the power
is below every double; overflow is refused. -/
def scale (value : Float) (exponent : Int) : Option Float :=
  if exponent.natAbs ≤ 308 then
    if 0 ≤ exponent then
      let scaled := value * Decimal.nearest 1 exponent
      if scaled.isInf then none else some scaled
    else some (value / Decimal.nearest 1 (-exponent))
  else if value == 0.0 then some value
  else if 0 ≤ exponent then none
  else scale (value / Decimal.nearest 1 308) (exponent + 308)
termination_by exponent.natAbs
decreasing_by omega

/-- The value as a double. Significand and power of ten are rounded one by one, so the result may
differ from the nearest double; digits beyond 64 bits count for their number only. -/
def float? (number : Number) : Option Float :=
  let (significand, surplus) := absorb 0 number.whole
  let fraction := number.fraction.getD []
  let (significand, unread) := absorb significand fraction
  let shift : Int := surplus.length - (fraction.length - unread.length : Nat)
  let exponent : Int :=
    match number.exponent with
    | none => 0
    | some (true, digits) => -ofDigits digits
    | some (false, digits) => ofDigits digits
  (scale significand.toUInt64.toFloat (shift + exponent)).map fun value =>
    if number.negative then -value else value

end Number
end Gloss.Json
