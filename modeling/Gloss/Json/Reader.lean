import Gloss.Json.Token

/-! Reading JSON. The reader keeps the open arrays and objects on a stack, so nesting has no
limit. -/
namespace Gloss.Json

/-- An open array or object, with what it holds so far in reverse. -/
inductive Frame where
  | items (before : List Value)
  | members (before : List (Option Text × Value))
  | member (before : List (Option Text × Value)) (key : Option Text)

/-- What may come next. -/
inductive Expectation where
  | value
  | firstItem
  | key
  | firstKey
  | colon
  | separator
  deriving DecidableEq, Repr

/-- A point in a text: the open frames, innermost first, or the value that was read. -/
inductive ReaderState where
  | inside (stack : List Frame) (expects : Expectation)
  | done (value : Value)

def deliver (value : Value) : List Frame → Option ReaderState
  | [] => some (.done value)
  | .items before :: outer => some (.inside (.items (value :: before) :: outer) .separator)
  | .member before key :: outer =>
    some (.inside (.members ((key, value) :: before) :: outer) .separator)
  | .members _ :: _ => none

def takeValue (stack : List Frame) : Token → Option ReaderState
  | .null => deliver .null stack
  | .bool value => deliver (.bool value) stack
  | .number value => deliver (.number value) stack
  | .text value => deliver (.text value) stack
  | .openArray => some (.inside (.items [] :: stack) .firstItem)
  | .openObject => some (.inside (.members [] :: stack) .firstKey)
  | _ => none

def take (state : ReaderState) (token : Token) : Option ReaderState :=
  match state with
  | .done _ => none
  | .inside stack expects =>
    match expects, token, stack with
    | .firstItem, .closeArray, .items before :: outer => deliver (.array before.reverse) outer
    | .separator, .closeArray, .items before :: outer => deliver (.array before.reverse) outer
    | .separator, .comma, .items _ :: _ => some (.inside stack .value)
    | .firstKey, .closeObject, .members before :: outer => deliver (.object before.reverse) outer
    | .separator, .closeObject, .members before :: outer => deliver (.object before.reverse) outer
    | .separator, .comma, .members _ :: _ => some (.inside stack .key)
    | .firstKey, .text key, .members before :: outer =>
      some (.inside (.member before key :: outer) .colon)
    | .key, .text key, .members before :: outer =>
      some (.inside (.member before key :: outer) .colon)
    | .colon, .colon, _ => some (.inside stack .value)
    | .value, token, _ => takeValue stack token
    | .firstItem, token, _ => takeValue stack token
    | _, _, _ => none

/-- The value that a text spells. Nothing but white space may follow it. -/
def read (t : Text) : Option Value := do
  let found ← tokens t
  match ← found.foldlM take (.inside [] .value) with
  | .done value => some value
  | .inside _ _ => none

end Gloss.Json
