import Gloss.Decimal.Shortest
import Gloss.Text.Digits

/-! What plain scalars mean: null, flags, integers and real numbers. -/
namespace Gloss.Yaml

def isNull (t : Text) : Bool :=
  ["null".toList, "Null".toList, "NULL".toList, "~".toList].contains t

def readFlag (t : Text) : Option Bool :=
  if ["true".toList, "True".toList, "TRUE".toList].contains t then some true
  else if ["false".toList, "False".toList, "FALSE".toList].contains t then some false
  else none

def dropPlus (t : Text) : Text :=
  match t with
  | '+' :: rest => rest
  | _ => t

def readBased (base limit : Nat) (digits : Text) : Option Nat :=
  if digits.isEmpty then none else (Text.ofDigits? base digits).filter (· < limit)

/-- Whether a text of digits starts with a zero it does not need. Such a text is no number. -/
def hasLeadingZero (t : Text) : Bool :=
  match t with
  | '0' :: c :: rest => (c :: rest).all Char.isDigit
  | _ => false

def readDigits (limit : Nat) (t : Text) : Option Nat :=
  match t with
  | '0' :: 'x' :: digits => readBased 16 limit digits
  | '0' :: 'o' :: digits => readBased 8 limit digits
  | '0' :: 'b' :: digits => readBased 2 limit digits
  | _ => if hasLeadingZero t then none else readBased 10 limit t

def readNatural (limit : Nat) (t : Text) : Option Nat :=
  readDigits limit (dropPlus t)

def isNegative (limit : Nat) (t : Text) : Bool :=
  match t with
  | '-' :: digits => (readDigits limit digits).isSome
  | _ => false

/-- One more than the greatest number of 128 bits. -/
def integerLimit : Nat :=
  Text.wordLimit * Text.wordLimit

def isInteger (t : Text) : Bool :=
  (readNatural integerLimit t).isSome || isNegative (integerLimit / 2 + 1) t

def readExponent (t : Text) : Option Int :=
  match t with
  | [] => some 0
  | c :: rest =>
    if c ≠ 'e' && c ≠ 'E' then none
    else
      match rest with
      | '-' :: digits => if digits.isEmpty then none else (Text.ofDigits? 10 digits).map (-·)
      | _ =>
        let digits := dropPlus rest
        if digits.isEmpty then none else (Text.ofDigits? 10 digits).map (·)

/-- The double nearest to a decimal without a sign. There must be a digit before or behind the
point, and the value must not overflow. -/
def readMagnitude (t : Text) : Option Float := do
  let (whole, rest) := t.span Char.isDigit
  let (fraction, rest) :=
    match rest with
    | '.' :: rest => rest.span Char.isDigit
    | _ => ([], rest)
  guard !(whole ++ fraction).isEmpty
  let exponent ← readExponent rest
  let digits ← Text.ofDigits? 10 (whole ++ fraction)
  let value := Decimal.nearest digits (exponent - fraction.length)
  guard value.isFinite
  return value

def readDecimal (t : Text) : Option Float :=
  match t with
  | '-' :: magnitude => (readMagnitude magnitude).map (-·)
  | _ => readMagnitude t

/-- A real number. There are three spellings each of infinity and of no number. -/
def readReal (t : Text) : Option Float :=
  if [".inf".toList, ".Inf".toList, ".INF".toList].contains (dropPlus t) then some (1.0 / 0.0)
  else if ["-.inf".toList, "-.Inf".toList, "-.INF".toList].contains t then some (-1.0 / 0.0)
  else if [".nan".toList, ".NaN".toList, ".NAN".toList].contains t then some (0.0 / 0.0)
  else
    match t with
    | '+' :: '-' :: _ => none
    | _ => readDecimal (dropPlus t)

def isText (t : Text) : Bool :=
  !(t.isEmpty || isNull t || (readFlag t).isSome || isInteger t
    || (!hasLeadingZero (dropSign t) && (readReal t).isSome))
where
  dropSign (t : Text) : Text :=
    match t with
    | '-' :: rest => rest
    | _ => dropPlus t

end Gloss.Yaml
