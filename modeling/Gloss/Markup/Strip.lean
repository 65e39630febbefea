import Gloss.Markup.Piece
import Gloss.Markup.Vocabulary

/-! Removing markup. Definition blocks go with all they hold, the spans of definitions and
cross-references are unwrapped, and everything else stays, with the spans of the document itself. -/
namespace Gloss.Markup

def classStart : Text :=
  ['c', 'l', 'a', 's', 's', '=', '"']

def after? (pattern : Text) : Text → Option Text
  | [] => if pattern.isEmpty then some [] else none
  | c :: rest =>
    match pattern.isPrefixOf? (c :: rest) with
    | some tail => some tail
    | none => after? pattern rest

/-- The first class name of a tag. Only the first `class="` of the tag counts, wherever it stands,
and only if a quote closes it. -/
def firstClass? (inner : Text) : Option Text := do
  let value ← after? classStart inner
  guard (value.contains '"')
  Text.firstWord? (value.takeWhile (· != '"'))

/-- What to do with an open span: drop its closing tag, or keep it. -/
inductive OpenSpan where
  | unwrapped
  | kept
  deriving DecidableEq, Repr

/-- What a span is to the stripper. -/
inductive SpanRole where
  | block
  | wrapper
  | foreign
  deriving DecidableEq, Repr

def SpanRole.ofTag (vocabulary : Vocabulary) (inner : Text) : SpanRole :=
  match firstClass? inner with
  | none => .foreign
  | some name =>
    if name = vocabulary.textClass then .block
    else if name = vocabulary.containerClass || name = vocabulary.referenceClass then .wrapper
    else .foreign

/-- What remains of a list of pieces. `skipping` counts the open spans of the block being dropped,
none outside blocks; `stack` holds the open spans outside it, the innermost first. -/
def stripPieces (vocabulary : Vocabulary) (stack : List OpenSpan) (skipping : Nat) :
    List Piece → Text
  | [] => []
  | .char c :: rest =>
    if skipping = 0 then c :: stripPieces vocabulary stack 0 rest
    else stripPieces vocabulary stack skipping rest
  | .openTag inner :: rest =>
    if skipping = 0 then
      match SpanRole.ofTag vocabulary inner with
      | .block => stripPieces vocabulary stack 1 rest
      | .wrapper => stripPieces vocabulary (.unwrapped :: stack) 0 rest
      | .foreign =>
        (Piece.openTag inner).text ++ stripPieces vocabulary (.kept :: stack) 0 rest
    else stripPieces vocabulary stack (skipping + 1) rest
  | .closeTag inner :: rest =>
    if skipping = 0 then
      match stack with
      | .unwrapped :: outer => stripPieces vocabulary outer 0 rest
      | .kept :: outer => (Piece.closeTag inner).text ++ stripPieces vocabulary outer 0 rest
      | [] => (Piece.closeTag inner).text ++ stripPieces vocabulary [] 0 rest
    else stripPieces vocabulary stack (skipping - 1) rest

/-- The document without markup of a vocabulary. A block that is never closed takes the rest of the
document with it. -/
def strip (vocabulary : Vocabulary) (html : Text) : Text :=
  stripPieces vocabulary [] 0 (Piece.scan html)

end Gloss.Markup
