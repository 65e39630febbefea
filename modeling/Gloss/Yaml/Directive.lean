import Gloss.Text.Digits
import Gloss.Yaml.Token

/-! Anchors, tags and directives. -/
namespace Gloss.Yaml

def endsAnchor (next : Option Char) : Bool :=
  isWordEnd next || next.any (['?', ':', ',', ']', '\x7d', '%', '@', '\x60'].contains ·)

def readAnchor (cursor : Cursor) : Option (Text × Cursor) :=
  let (name, cursor) := cursor.step.readWhile isNameChar
  if name.isEmpty || !endsAnchor cursor.next? then none else some (name, cursor)

def tagMarks : List Char :=
  [';', '/', '?', ':', '@', '&', '=', '+', '$', '.', '%', '!', '~', '*', '\'', '(', ')']

def isTagChar (verbatim : Bool) (c : Char) : Bool :=
  isNameChar c || tagMarks.contains c || (verbatim && [',', '[', ']'].contains c)

/-- The number of octets that a sequence with this first octet has. -/
def sequenceLength? (octet : Nat) : Option Nat :=
  if octet < 0x80 then some 1
  else if octet / 0x20 == 0x6 then some 2
  else if octet / 0x10 == 0xE then some 3
  else if octet / 0x8 == 0x1E then some 4
  else none

/-- Decode the escapes of a tag. `due` counts the octets that must still follow in the sequence at
hand; only escapes may give them. -/
def decodeTag (due : Nat) : Text → Option Octets
  | [] => if due = 0 then some [] else none
  | '%' :: high :: low :: rest => do
    let octet ← Text.ofDigits? 16 [high, low]
    let due ←
      if due = 0 then (sequenceLength? octet).map (· - 1)
      else if octet / 0x40 = 2 then some (due - 1)
      else none
    return octet :: (← decodeTag due rest)
  | c :: rest =>
    if due = 0 && c != '%' then (decodeTag 0 rest).map (c.toNat :: ·) else none

/-- Read the characters of a tag; where they are `required` there must be some. An escaped zero ends
what they stand for: the rest counts for nothing, though its escapes must be sound. -/
def readTagText (verbatim required : Bool) (cursor : Cursor) : Option (Octets × Cursor) := do
  let (text, cursor) := cursor.readWhile (isTagChar verbatim)
  guard (!required || !text.isEmpty)
  return ((← decodeTag 0 text).takeWhile (· != 0), cursor)

/-- Read a handle: an exclamation mark, or a name between two of them. A name without the second
mark is no handle yet. -/
def readHandle (cursor : Cursor) : Option (Text × Cursor) :=
  if cursor.next? = some '!' then
    let (name, after) := cursor.step.readWhile isNameChar
    if after.next? = some '!' then some ('!' :: name ++ ['!'], after.step)
    else some ('!' :: name, after)
  else none

def readTagParts (cursor : Cursor) : Option (Token × Cursor) :=
  if cursor.ahead? 1 = some '<' then do
    let (suffix, cursor) ← readTagText true true (cursor.skip 2)
    guard (cursor.next? = some '>')
    return (.tag [] suffix, cursor.step)
  else do
    let (handle, after) ← readHandle cursor
    if handle.length > 1 && handle.getLast? = some '!' then
      let (suffix, cursor) ← readTagText false true after
      return (.tag (.ofAscii handle) suffix, cursor)
    else
      let (suffix, cursor) ← readTagText false false after
      let suffix := Octets.ofAscii (handle.drop 1) ++ suffix
      if suffix.isEmpty then return (.tag [] (.ofAscii ['!']), cursor)
      else return (.tag (.ofAscii ['!']) suffix, cursor)

/-- Read a tag. A blank or line break follows it, in a flow collection perhaps a comma. -/
def readTag (inFlow : Bool) (cursor : Cursor) : Option (Token × Cursor) := do
  let (token, cursor) ← readTagParts cursor
  guard (isWordEnd cursor.next? || (inFlow && cursor.next? = some ','))
  return (token, cursor)

def readVersionNumber (cursor : Cursor) : Option (Nat × Cursor) :=
  let (digits, cursor) := cursor.readWhile Char.isDigit
  if digits.isEmpty || digits.length > 9 then none
  else (Text.ofDigits? 10 digits).map fun value => (value, cursor)

def readVersion (cursor : Cursor) : Option (Token × Cursor) := do
  let (major, cursor) ← readVersionNumber (cursor.skipWhile isBlank)
  guard (cursor.next? = some '.')
  let (minor, cursor) ← readVersionNumber cursor.step
  return (.versionDirective major minor, cursor)

def readTagDefinition (cursor : Cursor) : Option (Token × Cursor) := do
  let (handle, cursor) ← readHandle (cursor.skipWhile isBlank)
  guard (handle.getLast? = some '!' && cursor.next?.any isBlank)
  let (expansion, cursor) ← readTagText true true (cursor.skipWhile isBlank)
  guard (isWordEnd cursor.next?)
  return (.tagDirective (.ofAscii handle) expansion, cursor)

def readDirective (cursor : Cursor) : Option (Token × Cursor) := do
  let (name, cursor) := cursor.step.readWhile isNameChar
  guard (isWordEnd cursor.next?)
  let (token, cursor) ←
    if name = "YAML".toList then readVersion cursor
    else if name = "TAG".toList then readTagDefinition cursor
    else none
  return (token, ← cursor.finishLine?)

end Gloss.Yaml
