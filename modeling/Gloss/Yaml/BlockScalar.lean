import Gloss.Text.Digits
import Gloss.Yaml.Scalar

/-! Reading literal and folded block scalars. -/
namespace Gloss.Yaml

/-- What becomes of the line breaks at the end of a block scalar. -/
inductive Chomping where
  | strip
  | clip
  | keep
  deriving DecidableEq, Repr

def readChomping? (cursor : Cursor) : Option (Chomping × Cursor) :=
  match cursor.next? with
  | some '+' => some (.keep, cursor.step)
  | some '-' => some (.strip, cursor.step)
  | _ => none

def readIndentation (cursor : Cursor) : Option (Option Nat × Cursor) :=
  match cursor.next?.bind (Text.digit? 10) with
  | none => some (none, cursor)
  | some 0 => none
  | some digit => some (some digit, cursor.step)

def readBlockHeader (cursor : Cursor) : Option (Chomping × Option Nat × Cursor) := do
  match readChomping? cursor with
  | some (chomping, cursor) =>
    let (indentation, cursor) ← readIndentation cursor
    return (chomping, indentation, ← cursor.finishLine?)
  | none =>
    let (indentation, cursor) ← readIndentation cursor
    let (chomping, cursor) :=
      if indentation.isSome then (readChomping? cursor).getD (.clip, cursor) else (.clip, cursor)
    return (chomping, indentation, ← cursor.finishLine?)

/-- Whether a column lies left of the text of a block scalar. Without a known indentation they all
do. -/
def isIndentation (indent : Option Nat) (column : Nat) : Bool :=
  indent.all (column < ·)

def skipIndentation (indent : Option Nat) (cursor : Cursor) : Cursor :=
  let spaces := (cursor.rest.takeWhile (· == ' ')).length
  cursor.skip (indent.elim spaces fun column => min spaces (column - cursor.column))

/-- What lies before a line with text: line breaks, and the deepest indentation seen. -/
structure BlockGap where
  breaks : List Text := []
  deepest : Nat := 0

def BlockGap.text (gap : BlockGap) : Text :=
  joinChunks gap.breaks

/-- Read empty lines up to one with text. A tab must not stand in the indentation. -/
def readBlockGap (indent : Option Nat) : Nat → BlockGap → Cursor → Option (BlockGap × Cursor)
  | 0, gap, cursor => some (gap, cursor)
  | turns + 1, gap, cursor =>
    let cursor := skipIndentation indent cursor
    let gap := { gap with deepest := max gap.deepest cursor.column }
    if isIndentation indent cursor.column && cursor.next? = some '\t' then none
    else if cursor.next?.any isBreak then
      let (lineBreak, cursor) := cursor.readBreak
      readBlockGap indent turns { gap with breaks := lineBreak :: gap.breaks } cursor
    else some (gap, cursor)

/-- The part of a block scalar that has been read, and what stands behind its last line. -/
structure BlockText where
  chunks : List Text := []
  lineBreak : Text := []
  startsBlank : Bool := false
  further : Text := []

/-- What joins the last line to the next. Only lines that start with no blank are folded. -/
def BlockText.joint (block : BlockText) (isFolded startsBlank : Bool) : Text :=
  if isFolded && block.lineBreak = ['\n'] && !block.startsBlank && !startsBlank then
    foldBreaks block.lineBreak block.further
  else block.lineBreak ++ block.further

def readBlockLines (isFolded : Bool) (indent : Nat) :
    Nat → BlockText → Cursor → Option (BlockText × Cursor)
  | 0, _, _ => none
  | turns + 1, block, cursor =>
    if cursor.column = indent && !cursor.rest.isEmpty then do
      let startsBlank := cursor.next?.any isBlank
      let (line, cursor) := cursor.readWhile (!isBreak ·)
      let (lineBreak, cursor) := cursor.readBreak
      let (gap, cursor) ← readBlockGap (some indent) turns {} cursor
      let chunks := line :: block.joint isFolded startsBlank :: block.chunks
      readBlockLines isFolded indent turns
        { chunks, lineBreak, startsBlank, further := gap.text } cursor
    else some (block, cursor)

def BlockText.chomp (block : BlockText) : Chomping → Text
  | .strip => joinChunks block.chunks
  | .clip => joinChunks block.chunks ++ block.lineBreak
  | .keep => joinChunks block.chunks ++ block.lineBreak ++ block.further

/-- Read a block scalar behind its mark. Its lines start in the column `least` or right of it. -/
def readBlockScalar (isFolded : Bool) (least turns : Nat) (cursor : Cursor) :
    Option (Text × Cursor) := do
  let (chomping, indentation, cursor) ← readBlockHeader cursor
  let indent := indentation.map fun columns => (least - 1) + columns
  let (gap, cursor) ← readBlockGap indent turns {} cursor
  let column := indent.getD (max gap.deepest (max least 1))
  let (block, cursor) ←
    readBlockLines isFolded column turns { further := gap.text } cursor
  return (block.chomp chomping, cursor)

end Gloss.Yaml
