/-! The fewest decimal digits that read back as a given double. Of all decimals with so many digits
one looks at the two next to the value: where any of them reads back, one of these two does. -/
namespace Gloss.Decimal

def digitCount (n : Nat) : Nat :=
  (Nat.toDigits 10 n).length

/-- The double nearest to `digits` times ten to the power of `exponent`. Far below all doubles it is
zero and far above them infinite, so no great power has to be worked out. -/
def nearest (digits : Nat) (exponent : Int) : Float :=
  if digits = 0 || digitCount digits + exponent < -400 then 0.0
  else if 400 < exponent then 1.0 / 0.0
  else Float.ofScientific digits (exponent < 0) exponent.natAbs

/-- Magnitude of a finite double, as a fraction. -/
structure Magnitude where
  num : Nat
  den : Nat

def fractionLimit : Nat :=
  0x10000000000000

/-- The magnitude that a bit pattern stands for. The low 52 bits are the fraction, the next 11 the
exponent. -/
def Magnitude.ofBits (bits : Nat) : Magnitude :=
  let fraction := bits % fractionLimit
  let exponent := bits / fractionLimit % 0x800
  let significand := if exponent = 0 then fraction else fractionLimit + fraction
  let scale := if exponent = 0 then 1 else exponent
  ⟨significand <<< (scale - 1075), 1 <<< (1075 - scale)⟩

def Magnitude.order (value : Magnitude) : Int :=
  if value.den ≤ value.num then digitCount (value.num / value.den) - 1
  else -digitCount ((value.den - 1) / value.num)

def tenTo (exponent : Nat) : Nat :=
  Nat.pow 10 exponent

def Magnitude.floorAt (value : Magnitude) (exponent : Int) : Nat :=
  if exponent < 0 then value.num * tenTo exponent.natAbs / value.den
  else value.num / (value.den * tenTo exponent.natAbs)

def Magnitude.isBelowMiddle (value : Magnitude) (digits : Nat) (exponent : Int) : Bool :=
  if exponent < 0 then
    2 * value.num * tenTo exponent.natAbs < (2 * digits + 1) * value.den
  else 2 * value.num < (2 * digits + 1) * value.den * tenTo exponent.natAbs

/-- Of the two neighbours of a positive double in units of ten to the power of `exponent`, the one
that reads back; if both do, the nearer, and the upper one if neither is nearer. -/
def neighbour? (value : Float) (exponent : Int) : Option Nat :=
  let magnitude := Magnitude.ofBits value.toBits.toNat
  let below := magnitude.floorAt exponent
  let readsBack := fun digits => (nearest digits exponent).toBits == value.toBits
  match readsBack below, readsBack (below + 1) with
  | true, true => some (if magnitude.isBelowMiddle below exponent then below else below + 1)
  | true, false => some below
  | false, true => some (below + 1)
  | false, false => none

/-- The first decimal that reads back, in at most `limit` units, each a tenth of the one before. -/
def searchFrom (value : Float) (exponent : Int) : Nat → Nat × Int
  | 0 => (0, 0)
  | limit + 1 =>
    match neighbour? value exponent with
    | some digits => (digits, exponent)
    | none => searchFrom value (exponent - 1) limit

/-- Digits and power of ten of a positive double. The first unit lies above the value, which may
round up to it; seventeen digits below it always suffice. -/
def shortest (value : Float) : Nat × Int :=
  searchFrom value ((Magnitude.ofBits value.toBits.toNat).order + 1) 18

end Gloss.Decimal
