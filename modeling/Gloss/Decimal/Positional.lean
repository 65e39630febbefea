import Gloss.Decimal.Shortest

/-! Doubles as people write them: never with an exponent, and whole numbers without a point. -/
namespace Gloss.Decimal

def layOut (digits : Nat) (exponent : Int) : String :=
  let figures := Nat.toDigits 10 digits
  let places := exponent.natAbs
  String.ofList <|
    if 0 ≤ exponent then figures ++ List.replicate places '0'
    else if figures.length ≤ places then
      '0' :: '.' :: List.replicate (places - figures.length) '0' ++ figures
    else figures.take (figures.length - places) ++ '.' :: figures.drop (figures.length - places)

/-- The shortest positional text that reads back as a double. -/
def positional (value : Float) : String :=
  if value.isNaN then "NaN"
  else
    let sign := if value.toBits >>> 63 = 0 then "" else "-"
    let magnitude := value.abs
    if magnitude.isInf then sign ++ "inf"
    else if magnitude.toBits = 0 then sign ++ "0"
    else
      let (digits, exponent) := shortest magnitude
      sign ++ layOut digits exponent

end Gloss.Decimal
