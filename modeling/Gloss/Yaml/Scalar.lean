import Gloss.Text.Digits
import Gloss.Yaml.Token

/-! Reading plain and quoted scalars. Between their words there are gaps of blanks and line breaks:
within a line a gap stays as it is, across lines it is folded. -/
namespace Gloss.Yaml

structure Gap where
  blanks : Text := []
  broken : Bool := false
  /-- The first line break, and those that follow it. -/
  first : Text := []
  further : Text := []

/-- What line breaks fold to: a single line feed becomes a space, one with others behind it goes,
and a separator stays. -/
def foldBreaks (first further : Text) : Text :=
  if first = ['\n'] then (if further.isEmpty then [' '] else further) else first ++ further

def Gap.text (gap : Gap) : Text :=
  if gap.broken then foldBreaks gap.first gap.further else gap.blanks

/-- Read a gap to its end. In a plain scalar no tab may stand left of the column `indent` on the
lines after the first. Every turn takes a character. -/
def readGap (indent : Nat) : Nat → Gap → Cursor → Option (Gap × Cursor)
  | 0, gap, cursor => some (gap, cursor)
  | turns + 1, gap, cursor =>
    match cursor.next? with
    | none => some (gap, cursor)
    | some c =>
      if isBlank c then
        if !gap.broken then
          readGap indent turns { gap with blanks := gap.blanks ++ [c] } cursor.step
        else if c = '\t' && cursor.column < indent then none
        else readGap indent turns gap cursor.step
      else if isBreak c then
        let (lineBreak, cursor) := cursor.readBreak
        if gap.broken then
          readGap indent turns { gap with further := gap.further ++ lineBreak } cursor
        else readGap indent turns { broken := true, first := lineBreak } cursor
      else some (gap, cursor)

/-- Read a word of a plain scalar. A colon ends it before a word end, and in a flow collection so
does a flow mark; there a colon directly before a flow mark or a question mark is a fault. -/
def readPlainWord (inFlow : Bool) (before : Text) : Text → Option Text
  | [] => some before.reverse
  | c :: rest =>
    if isWordEnd (some c) then some before.reverse
    else if c = ':' then
      if inFlow && rest.head?.any (fun next => isFlowMark next || next == '?') then none
      else if isWordEnd rest.head? then some before.reverse
      else readPlainWord inFlow (c :: before) rest
    else if inFlow && isFlowMark c then some before.reverse
    else readPlainWord inFlow (c :: before) rest

def joinChunks (chunks : List Text) : Text :=
  chunks.reverse.flatten

/-- Read a plain scalar, which goes on over lines that start at the column `indent` or right of it.
The flag tells whether it ended behind a line break. -/
def readPlain (inFlow : Bool) (indent : Nat) :
    Nat → List Text → Gap → Cursor → Option (Text × Bool × Cursor)
  | 0, _, _, _ => none
  | turns + 1, chunks, gap, cursor =>
    if cursor.atDocumentMarker || cursor.next? = some '#' then
      some (joinChunks chunks, gap.broken, cursor)
    else do
      let word ← readPlainWord inFlow [] cursor.rest
      if word.isEmpty then return (joinChunks chunks, gap.broken, cursor)
      let chunks := word :: gap.text :: chunks
      let behind := cursor.skip word.length
      let (gap, cursor) ← readGap indent turns {} behind
      if cursor.index = behind.index || (!inFlow && cursor.column < indent) then
        return (joinChunks chunks, gap.broken, cursor)
      readPlain inFlow indent turns chunks gap cursor

def escapedChar? : Char → Option Char
  | '0' => some '\x00'
  | 'a' => some '\x07'
  | 'b' => some '\x08'
  | 't' => some '\t'
  | '\t' => some '\t'
  | 'n' => some '\n'
  | 'v' => some '\x0b'
  | 'f' => some '\x0c'
  | 'r' => some '\r'
  | 'e' => some '\x1b'
  | ' ' => some ' '
  | '"' => some '"'
  | '/' => some '/'
  | '\\' => some '\\'
  | 'N' => some '\u0085'
  | '_' => some '\u00a0'
  | 'L' => some '\u2028'
  | 'P' => some '\u2029'
  | _ => none

/-- The character with a code point in hexadecimal digits. Surrogates are none. -/
def escapedCode? (digits : Text) : Option Char := do
  let code ← Text.ofDigits? 16 digits
  guard code.isValidChar
  return Char.ofNat code

/-- What a quoted scalar has up to its next gap or its end. -/
structure QuotedRun where
  text : Text
  length : Nat
  /-- Whether the run ends in the backslash of an escaped line break. -/
  escapedBreak : Bool := false

def readSingleQuotedRun (before : Text) (length : Nat) : Text → QuotedRun
  | [] => { text := before.reverse, length }
  | '\'' :: '\'' :: rest => readSingleQuotedRun ('\'' :: before) (length + 2) rest
  | c :: rest =>
    if c = '\'' || isWordEnd (some c) then { text := before.reverse, length }
    else readSingleQuotedRun (c :: before) (length + 1) rest

def readDoubleQuotedRun (before : Text) (length : Nat) : Text → Option QuotedRun
  | [] => some { text := before.reverse, length }
  | ['\\'] => none
  | '\\' :: 'x' :: a :: b :: rest => do
    let c ← escapedCode? [a, b]
    readDoubleQuotedRun (c :: before) (length + 4) rest
  | '\\' :: 'u' :: a :: b :: c :: d :: rest => do
    let c ← escapedCode? [a, b, c, d]
    readDoubleQuotedRun (c :: before) (length + 6) rest
  | '\\' :: 'U' :: a :: b :: c :: d :: e :: f :: g :: h :: rest => do
    let c ← escapedCode? [a, b, c, d, e, f, g, h]
    readDoubleQuotedRun (c :: before) (length + 10) rest
  | '\\' :: c :: rest =>
    if isBreak c then some { text := before.reverse, length := length + 1, escapedBreak := true }
    else do
      let c ← escapedChar? c
      readDoubleQuotedRun (c :: before) (length + 2) rest
  | c :: rest =>
    if c = '"' || isWordEnd (some c) then some { text := before.reverse, length }
    else readDoubleQuotedRun (c :: before) (length + 1) rest

def readQuotedRun (quote : Char) (t : Text) : Option QuotedRun :=
  if quote = '"' then readDoubleQuotedRun [] 0 t else some (readSingleQuotedRun [] 0 t)

/-- Read a quoted scalar behind its opening quote. It must end before the document does. -/
def readQuoted (quote : Char) : Nat → List Text → Cursor → Option (Text × Cursor)
  | 0, _, _ => none
  | turns + 1, chunks, cursor =>
    if cursor.atDocumentMarker || cursor.rest.isEmpty then none
    else do
      let run ← readQuotedRun quote cursor.rest
      let behind := cursor.skip run.length
      let cursor := if run.escapedBreak then behind.readBreak.2 else behind
      let chunks := run.text :: chunks
      if cursor.next? = some quote then return (joinChunks chunks, cursor.step)
      let (gap, cursor) ← readGap 0 turns { broken := run.escapedBreak } cursor
      readQuoted quote turns (gap.text :: chunks) cursor

end Gloss.Yaml
