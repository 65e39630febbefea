import Gloss.Text.Blank

/-! A document as characters and span tags. A tag runs from `<` to `>` with no other `<` between;
any other `<` is a character like the rest. -/
namespace Gloss.Markup

/-- A part of a document. Tags keep what stands between their brackets. -/
inductive Piece where
  | char (c : Char)
  | openTag (inner : Text)
  | closeTag (inner : Text)
  deriving DecidableEq, Repr

namespace Piece

def text : Piece → Text
  | .char c => [c]
  | .openTag inner => '<' :: inner ++ ['>']
  | .closeTag inner => '<' :: inner ++ ['>']

/-- Split what follows a `<` at the next bracket, if that one closes the tag. -/
def splitTag (t : Text) : Option (Text × Text) :=
  match t.dropWhile (fun c => c != '<' && c != '>') with
  | '>' :: rest => some (t.takeWhile (fun c => c != '<' && c != '>'), rest)
  | _ => none

def opensSpan (inner : Text) : Bool :=
  match inner with
  | 's' :: 'p' :: 'a' :: 'n' :: [] => true
  | 's' :: 'p' :: 'a' :: 'n' :: c :: _ => c == '/' || Text.isWhite c
  | _ => false

def closesSpan (inner : Text) : Bool :=
  match inner with
  | '/' :: 's' :: 'p' :: 'a' :: 'n' :: [] => true
  | '/' :: 's' :: 'p' :: 'a' :: 'n' :: c :: _ => Text.isWhite c
  | _ => false

def spanTag? (t : Text) : Option (Piece × Text) :=
  match splitTag t with
  | none => none
  | some (inner, rest) =>
    if closesSpan inner then some (.closeTag inner, rest)
    else if opensSpan inner then some (.openTag inner, rest)
    else none

theorem splitTag_length {t inner rest : Text} (h : splitTag t = some (inner, rest)) :
    rest.length < t.length := by
  unfold splitTag at h
  split at h
  · next tail split =>
    have shorter := (List.dropWhile_sublist (l := t) (fun c => c != '<' && c != '>')).length_le
    simp only [Option.some.injEq, Prod.mk.injEq] at h
    rw [split] at shorter
    simp only [List.length_cons, ← h.2] at shorter ⊢
    omega
  · simp at h

theorem spanTag?_length {t rest : Text} {piece : Piece} (h : spanTag? t = some (piece, rest)) :
    rest.length < t.length := by
  unfold spanTag? at h
  split at h
  · simp at h
  · next inner tail split =>
    split at h
    · simp only [Option.some.injEq, Prod.mk.injEq] at h
      exact h.2 ▸ splitTag_length split
    · split at h
      · simp only [Option.some.injEq, Prod.mk.injEq] at h
        exact h.2 ▸ splitTag_length split
      · simp at h

def scan : Text → List Piece
  | [] => []
  | c :: rest =>
    if c = '<' then
      match _h : spanTag? rest with
      | some (piece, after) => piece :: scan after
      | none => .char c :: scan rest
    else .char c :: scan rest
termination_by t => t.length
decreasing_by
  · have := spanTag?_length _h
    simp
    omega
  · simp
  · simp

end Piece
end Gloss.Markup
