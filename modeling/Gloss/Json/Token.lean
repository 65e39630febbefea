import Gloss.Json.Value
import Gloss.Text.Digits

/-! The tokens of a JSON text. White space is the space, the tab and the two line ends. -/
namespace Gloss.Json

inductive Token where
  | openArray
  | closeArray
  | openObject
  | closeObject
  | comma
  | colon
  | null
  | bool (value : Bool)
  | number (value : Number)
  | text (value : Option Text)

def escapedChar? : Char → Option Char
  | '"' => some '"'
  | '\\' => some '\\'
  | '/' => some '/'
  | 'b' => some '\x08'
  | 'f' => some '\x0c'
  | 'n' => some '\n'
  | 'r' => some '\r'
  | 't' => some '\t'
  | _ => none

/-- Read a string up to its closing quote, as code points. Surrogates stay apart; `before` holds
what has been read, in reverse. -/
def readString (before : List Nat) : Text → Option (List Nat × Text)
  | [] => none
  | '"' :: rest => some (before.reverse, rest)
  | '\\' :: 'u' :: a :: b :: c :: d :: rest =>
    match Text.ofDigits? 16 [a, b, c, d] with
    | none => none
    | some unit => readString (unit :: before) rest
  | '\\' :: c :: rest =>
    match escapedChar? c with
    | none => none
    | some escaped => readString (escaped.toNat :: before) rest
  | c :: rest => if c.toNat < 0x20 then none else readString (c.toNat :: before) rest

def isHighSurrogate (code : Nat) : Bool :=
  0xD800 ≤ code && code < 0xDC00

def isLowSurrogate (code : Nat) : Bool :=
  0xDC00 ≤ code && code < 0xE000

def joinSurrogates : List Nat → Option Text
  | [] => some []
  | high :: low :: rest =>
    if isHighSurrogate high then
      if isLowSurrogate low then
        (joinSurrogates rest).map
          (Char.ofNat (0x10000 + (high - 0xD800) * 0x400 + (low - 0xDC00)) :: ·)
      else none
    else if isLowSurrogate high then none
    else (joinSurrogates (low :: rest)).map (Char.ofNat high :: ·)
  | [code] =>
    if isHighSurrogate code || isLowSurrogate code then none else some [Char.ofNat code]

def readDigits (t : Text) : List Nat × Text :=
  let (digits, rest) := t.span (·.isDigit)
  (digits.map fun c => c.toNat - '0'.toNat, rest)

/-- Read the digits before the point. A zero stands alone. -/
def readWhole (t : Text) : Option (List Nat × Text) :=
  match t with
  | '0' :: rest => some ([0], rest)
  | _ =>
    match readDigits t with
    | ([], _) => none
    | found => some found

def readFraction (t : Text) : Option (Option (List Nat) × Text) :=
  match t with
  | '.' :: rest =>
    match readDigits rest with
    | ([], _) => none
    | (digits, after) => some (some digits, after)
  | _ => some (none, t)

def readSign (t : Text) : Bool × Text :=
  match t with
  | '-' :: rest => (true, rest)
  | '+' :: rest => (false, rest)
  | _ => (false, t)

def readExponent (t : Text) : Option (Option (Bool × List Nat) × Text) :=
  match t with
  | [] => some (none, t)
  | c :: rest =>
    if c = 'e' || c = 'E' then
      let (negative, unsigned) := readSign rest
      match readDigits unsigned with
      | ([], _) => none
      | (digits, after) => some (some (negative, digits), after)
    else some (none, t)

def readNumber (negative : Bool) (t : Text) : Option (Number × Text) := do
  let (whole, t) ← readWhole t
  let (fraction, t) ← readFraction t
  let (exponent, t) ← readExponent t
  return (⟨negative, whole, fraction, exponent⟩, t)

def readToken (c : Char) (rest : Text) : Option (Token × Text) :=
  match c with
  | '[' => some (.openArray, rest)
  | ']' => some (.closeArray, rest)
  | '\x7b' => some (.openObject, rest)
  | '\x7d' => some (.closeObject, rest)
  | ',' => some (.comma, rest)
  | ':' => some (.colon, rest)
  | '"' => (readString [] rest).map fun (codes, after) => (.text (joinSurrogates codes), after)
  | '-' => (readNumber true rest).map fun (number, after) => (.number number, after)
  | 'n' => ("ull".toList.isPrefixOf? rest).map fun after => (.null, after)
  | 't' => ("rue".toList.isPrefixOf? rest).map fun after => (.bool true, after)
  | 'f' => ("alse".toList.isPrefixOf? rest).map fun after => (.bool false, after)
  | _ => (readNumber false (c :: rest)).map fun (number, after) => (.number number, after)

def isSpace (c : Char) : Bool :=
  c == ' ' || c == '\t' || c == '\n' || c == '\r'

/-- The tokens of a text, behind those in `before`, which are in reverse. Every step takes at least
one character, so the length of the text bounds the number of steps. -/
def tokensWithin (before : List Token) : Nat → Text → Option (List Token)
  | 0, _ => none
  | _ + 1, [] => some before.reverse
  | steps + 1, c :: rest =>
    if isSpace c then tokensWithin before steps rest
    else
      match readToken c rest with
      | none => none
      | some (token, after) => tokensWithin (token :: before) steps after

def tokens (t : Text) : Option (List Token) :=
  tokensWithin [] (t.length + 1) t

end Gloss.Json
