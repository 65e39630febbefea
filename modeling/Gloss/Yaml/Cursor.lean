import Gloss.Text.Basic

/-! A place in a YAML text, and the classes of characters that steer the scanner. -/
namespace Gloss.Yaml

def isPermitted (c : Char) : Bool :=
  let code := c.toNat
  code == 0x9 || code == 0xA || code == 0xD || (0x20 ≤ code && code ≤ 0x7E) || code == 0x85
    || (0xA0 ≤ code && code ≤ 0xD7FF) || (0xE000 ≤ code && code ≤ 0xFFFD) || 0x10000 ≤ code

def isBlank (c : Char) : Bool :=
  c == ' ' || c == '\t'

/-- A line break. Besides the usual ones there are next line, line and paragraph separator. -/
def isBreak (c : Char) : Bool :=
  c == '\n' || c == '\r' || c == '\u0085' || c == '\u2028' || c == '\u2029'

def isWordEnd : Option Char → Bool
  | none => true
  | some c => isBlank c || isBreak c

def isLineEnd : Option Char → Bool
  | none => true
  | some c => isBreak c

def isNameChar (c : Char) : Bool :=
  c.isAlphanum || c == '_' || c == '-'

def isFlowMark (c : Char) : Bool :=
  [',', '[', ']', '\x7b', '\x7d'].contains c

/-- The text that is still to be read, and where it starts: bytes read, line and column. -/
structure Cursor where
  rest : Text
  index : Nat := 0
  line : Nat := 0
  column : Nat := 0

namespace Cursor

def next? (cursor : Cursor) : Option Char :=
  cursor.rest.head?

def ahead? (cursor : Cursor) (places : Nat) : Option Char :=
  cursor.rest[places]?

def skip (cursor : Cursor) (places : Nat) : Cursor :=
  { cursor with
    rest := cursor.rest.drop places
    index := cursor.index + Text.byteLength (cursor.rest.take places)
    column := cursor.column + places }

def step (cursor : Cursor) : Cursor :=
  cursor.skip 1

def readWhile (cursor : Cursor) (kind : Char → Bool) : Text × Cursor :=
  let found := cursor.rest.takeWhile kind
  (found, cursor.skip found.length)

def skipWhile (cursor : Cursor) (kind : Char → Bool) : Cursor :=
  (cursor.readWhile kind).2

def newLine (cursor : Cursor) (lineBreak rest : Text) : Cursor :=
  { rest, index := cursor.index + Text.byteLength lineBreak, line := cursor.line + 1 }

/-- Read a line break. All become a line feed but the two separators, which stay. -/
def readBreak (cursor : Cursor) : Text × Cursor :=
  match cursor.rest with
  | '\r' :: '\n' :: rest => (['\n'], cursor.newLine ['\r', '\n'] rest)
  | '\u2028' :: rest => (['\u2028'], cursor.newLine ['\u2028'] rest)
  | '\u2029' :: rest => (['\u2029'], cursor.newLine ['\u2029'] rest)
  | c :: rest => if isBreak c then (['\n'], cursor.newLine [c] rest) else ([], cursor)
  | [] => ([], cursor)

def skipComment (cursor : Cursor) : Cursor :=
  if cursor.next? = some '#' then cursor.skipWhile (!isBreak ·) else cursor

def finishLine? (cursor : Cursor) : Option Cursor :=
  let cursor := (cursor.skipWhile isBlank).skipComment
  if isLineEnd cursor.next? then some cursor.readBreak.2 else none

/-- Whether a line starts here with three times the same mark, as documents do and end. -/
def startsMarker (cursor : Cursor) (mark : Char) : Bool :=
  cursor.column == 0 && cursor.rest.take 3 == [mark, mark, mark] && isWordEnd (cursor.ahead? 3)

def atDocumentMarker (cursor : Cursor) : Bool :=
  cursor.startsMarker '-' || cursor.startsMarker '.'

end Cursor
end Gloss.Yaml
