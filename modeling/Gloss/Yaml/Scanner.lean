import Gloss.Yaml.BlockScalar
import Gloss.Yaml.Directive

/-! From text to tokens. Indentation turns into tokens that open and close block collections. A key
is known by the colon behind it only, so every place where one may begin is kept in mind until then,
and the token that marks the key is put in afterwards. -/
namespace Gloss.Yaml

/-- A place where a key may have begun. It must end on its line, within 1024 bytes. -/
structure PossibleKey where
  isRequired : Bool
  position : Nat
  index : Nat
  line : Nat
  column : Nat

structure Scanner where
  cursor : Cursor
  /-- The tokens so far, in reverse, and their number. -/
  tokens : List Token := []
  count : Nat := 0
  indents : List Nat := []
  pending : Option PossibleKey := none
  /-- The possible keys of the contexts around it: one for every open flow collection. -/
  outer : List (Option PossibleKey) := []
  keyAllowed : Bool := true
  /-- More than the number of characters in the text, so a bound for loops that take one each. -/
  limit : Nat

namespace Scanner

def inFlow (scanner : Scanner) : Bool :=
  !scanner.outer.isEmpty

def leastColumn (scanner : Scanner) : Nat :=
  scanner.indents.head?.elim 0 (· + 1)

def push (scanner : Scanner) (token : Token) : Scanner :=
  { scanner with tokens := token :: scanner.tokens, count := scanner.count + 1 }

def insertAt (scanner : Scanner) (position : Nat) (token : Token) : Scanner :=
  let later := scanner.count - position
  { scanner with
    tokens := scanner.tokens.take later ++ token :: scanner.tokens.drop later
    count := scanner.count + 1 }

def dropKey (scanner : Scanner) : Option Scanner :=
  if scanner.pending.any (·.isRequired) then none else some { scanner with pending := none }

/-- Remember that a key may begin here. Left of everything else on its line in a block mapping,
nothing but a key can. -/
def saveKey (scanner : Scanner) : Option Scanner :=
  if scanner.keyAllowed then do
    let cursor := scanner.cursor
    let isRequired := !scanner.inFlow && scanner.indents.head? = some cursor.column
    let key := ⟨isRequired, scanner.count, cursor.index, cursor.line, cursor.column⟩
    return { ← scanner.dropKey with pending := some key }
  else some scanner

def isOpen (cursor : Cursor) (key : PossibleKey) : Bool :=
  cursor.line ≤ key.line && cursor.index ≤ key.index + 1024

def refresh (cursor : Cursor) : Option PossibleKey → Option (Option PossibleKey)
  | none => some none
  | some key =>
    if isOpen cursor key then some (some key) else if key.isRequired then none else some none

def dropStaleKeys (scanner : Scanner) : Option Scanner := do
  return { scanner with
    pending := ← refresh scanner.cursor scanner.pending
    outer := ← scanner.outer.mapM (refresh scanner.cursor) }

/-- Open a block collection in a column, unless one is open there already. Its token goes to
`position`, or to the end. -/
def openBlock (scanner : Scanner) (column : Nat) (position : Option Nat) (token : Token) :
    Scanner :=
  if scanner.inFlow || column < scanner.leastColumn then scanner
  else
    let opened := { scanner with indents := column :: scanner.indents }
    position.elim (opened.push token) (opened.insertAt · token)

def closeColumns (scanner : Scanner) : List Nat → Scanner
  | [] => scanner
  | _ :: rest => (scanner.push .blockEnd).closeColumns rest

/-- Close the block collections right of a column, outside flow collections. With no column, close
all. -/
def closeBlocks (scanner : Scanner) (column : Option Nat) : Scanner :=
  if scanner.inFlow then scanner
  else
    let (closed, kept) := scanner.indents.span fun indent => column.all (· < indent)
    { scanner.closeColumns closed with indents := kept }

/-- Move to the next token. Tabs count as blanks only where no key can begin. Every turn takes a
line. -/
def skipToToken : Nat → Scanner → Scanner
  | 0, scanner => scanner
  | turns + 1, scanner =>
    let cursor := scanner.cursor
    let cursor :=
      if cursor.column = 0 && cursor.next? = some '\ufeff' then cursor.step else cursor
    let tabs := scanner.inFlow || !scanner.keyAllowed
    let cursor := (cursor.skipWhile fun c => c == ' ' || (tabs && c == '\t')).skipComment
    if cursor.next?.any isBreak then
      skipToToken turns
        { scanner with
          cursor := cursor.readBreak.2
          keyAllowed := scanner.keyAllowed || !scanner.inFlow }
    else { scanner with cursor }

def take (scanner : Scanner) (token : Token) (cursor : Cursor) (keyAllowed : Bool) : Scanner :=
  { scanner.push token with cursor, keyAllowed }

def takeDirective (scanner : Scanner) : Option Scanner := do
  let scanner ← (scanner.closeBlocks none).dropKey
  let (token, cursor) ← readDirective scanner.cursor
  return scanner.take token cursor false

def takeMarker (scanner : Scanner) (token : Token) : Option Scanner := do
  let scanner ← (scanner.closeBlocks none).dropKey
  return scanner.take token (scanner.cursor.skip 3) false

def takeFlowStart (scanner : Scanner) (token : Token) : Option Scanner := do
  let scanner ← scanner.saveKey
  return { scanner.take token scanner.cursor.step true with
    pending := none
    outer := scanner.pending :: scanner.outer }

def takeFlowEnd (scanner : Scanner) (token : Token) : Option Scanner := do
  let scanner ← scanner.dropKey
  let ended := scanner.take token scanner.cursor.step false
  match scanner.outer with
  | [] => return ended
  | pending :: outer => return { ended with pending, outer }

def takeFlowEntry (scanner : Scanner) : Option Scanner := do
  let scanner ← scanner.dropKey
  return scanner.take .flowEntry scanner.cursor.step true

def takeBlockEntry (scanner : Scanner) : Option Scanner := do
  guard (scanner.inFlow || scanner.keyAllowed)
  let scanner ← (scanner.openBlock scanner.cursor.column none .blockSequenceStart).dropKey
  return scanner.take .blockEntry scanner.cursor.step true

def takeKey (scanner : Scanner) : Option Scanner := do
  guard (scanner.inFlow || scanner.keyAllowed)
  let scanner ← (scanner.openBlock scanner.cursor.column none .blockMappingStart).dropKey
  return scanner.take .key scanner.cursor.step (!scanner.inFlow)

/-- Take the colon before a value. If a key may have begun before, it has. -/
def takeValue (scanner : Scanner) : Option Scanner := do
  match scanner.pending with
  | some key =>
    let scanner := (scanner.insertAt key.position .key).openBlock key.column (some key.position)
      .blockMappingStart
    return { scanner with pending := none }.take .value scanner.cursor.step false
  | none =>
    guard (scanner.inFlow || scanner.keyAllowed)
    let scanner := scanner.openBlock scanner.cursor.column none .blockMappingStart
    return scanner.take .value scanner.cursor.step (!scanner.inFlow)

def takeAnchor (scanner : Scanner) (token : Text → Token) : Option Scanner := do
  let scanner ← scanner.saveKey
  let (name, cursor) ← readAnchor scanner.cursor
  return scanner.take (token name) cursor false

def takeTag (scanner : Scanner) : Option Scanner := do
  let scanner ← scanner.saveKey
  let (token, cursor) ← readTag scanner.inFlow scanner.cursor
  return scanner.take token cursor false

def takeBlockScalar (scanner : Scanner) (style : ScalarStyle) : Option Scanner := do
  let scanner ← scanner.dropKey
  let (text, cursor) ←
    readBlockScalar (style == .folded) scanner.leastColumn scanner.limit scanner.cursor.step
  return scanner.take (.scalar style text) cursor true

def takeQuoted (scanner : Scanner) (quote : Char) (style : ScalarStyle) : Option Scanner := do
  let scanner ← scanner.saveKey
  let (text, cursor) ← readQuoted quote scanner.limit [] scanner.cursor.step
  return scanner.take (.scalar style text) cursor false

def takePlain (scanner : Scanner) : Option Scanner := do
  let scanner ← scanner.saveKey
  let (text, lineEnded, cursor) ←
    readPlain scanner.inFlow scanner.leastColumn scanner.limit [] {} scanner.cursor
  return scanner.take (.scalar .plain text) cursor lineEnded

def indicators : List Char :=
  ['-', '?', ':', ',', '[', ']', '\x7b', '\x7d', '#', '&', '*', '!', '|', '>', '\'', '"', '%', '@',
    '\x60']

def startsPlain (c : Char) : Bool :=
  !indicators.contains c

def takeToken (scanner : Scanner) (c : Char) : Option Scanner :=
  let ends := isWordEnd (scanner.cursor.ahead? 1)
  match c with
  | '[' => scanner.takeFlowStart .flowSequenceStart
  | ']' => scanner.takeFlowEnd .flowSequenceEnd
  | '\x7b' => scanner.takeFlowStart .flowMappingStart
  | '\x7d' => scanner.takeFlowEnd .flowMappingEnd
  | ',' => scanner.takeFlowEntry
  | '*' => scanner.takeAnchor .alias
  | '&' => scanner.takeAnchor .anchor
  | '!' => scanner.takeTag
  | '\'' => scanner.takeQuoted '\'' .singleQuoted
  | '"' => scanner.takeQuoted '"' .doubleQuoted
  | '-' => if ends then scanner.takeBlockEntry else scanner.takePlain
  | '?' => if scanner.inFlow || ends then scanner.takeKey else scanner.takePlain
  | ':' => if scanner.inFlow || ends then scanner.takeValue else scanner.takePlain
  | '|' => if scanner.inFlow then none else scanner.takeBlockScalar .literal
  | '>' => if scanner.inFlow then none else scanner.takeBlockScalar .folded
  | c => if startsPlain c && !isBlank c then scanner.takePlain else none

def approach (scanner : Scanner) : Option Scanner := do
  let scanner ← (skipToToken scanner.limit scanner).dropStaleKeys
  return scanner.closeBlocks (some scanner.cursor.column)

def takeNext (scanner : Scanner) (c : Char) : Option Scanner :=
  if scanner.cursor.column = 0 && c = '%' then scanner.takeDirective
  else if scanner.cursor.startsMarker '-' then scanner.takeMarker .documentStart
  else if scanner.cursor.startsMarker '.' then scanner.takeMarker .documentEnd
  else scanner.takeToken c

/-- Scan to the end of the text. Every turn but the last takes a character. -/
def finish : Nat → Scanner → Option Scanner
  | 0, _ => none
  | turns + 1, scanner => do
    let scanner ← scanner.approach
    match scanner.cursor.next? with
    | none => (scanner.closeBlocks none).dropKey
    | some c => finish turns (← scanner.takeNext c)

end Scanner

def tokens (t : Text) : Option (List Token) := do
  guard (t.all isPermitted)
  let limit := t.length + 1
  let scanner ← Scanner.finish limit { cursor := { rest := t }, limit }
  return scanner.tokens.reverse

end Gloss.Yaml
