import Gloss.Yaml.Node
import Gloss.Yaml.Scanner

/-! From tokens to nodes. Each function reads one production of the grammar; nesting is bounded by
the number of tokens, for every second call takes one. -/
namespace Gloss.Yaml

/-- The tokens still to be read, and the slots of the anchors so far. -/
structure ParserState where
  tokens : List Token
  slots : List (Text × Nat) := []

abbrev Parser :=
  StateT ParserState Option

namespace Parser

def peek : Parser (Option Token) := do
  return (← get).tokens.head?

def skip : Parser Unit :=
  modify fun state => { state with tokens := state.tokens.drop 1 }

def accept (token : Token) : Parser Bool := do
  if (← peek) = some token then
    skip
    return true
  else return false

def isNext (tokens : List Token) : Parser Bool := do
  return (← peek).any tokens.contains

/-- The slot for a new anchor. Its number is the count of names so far, so one that replaces an
anchor of the same name shares its number with the next new name. -/
def bindAnchor (name : Text) : Parser Nat := do
  let state ← get
  let slot := state.slots.length
  set { state with slots := (name, slot) :: state.slots.filter (·.1 != name) }
  return slot

def slotOf (name : Text) : Parser Nat := do
  StateT.lift ((← get).slots.lookup name)

abbrev Handles :=
  List (Octets × Octets)

def expandTag (handles : Handles) (handle suffix : Octets) : Option Octets :=
  if handle.isEmpty then some suffix else (handles.lookup handle).map (· ++ suffix)

def readTag (handles : Handles) : Parser (Option Octets) := do
  match ← peek with
  | some (.tag handle suffix) =>
    skip
    some <$> StateT.lift (expandTag handles handle suffix)
  | _ => return none

def readAnchor : Parser (Option Text) := do
  match ← peek with
  | some (.anchor name) =>
    skip
    return some name
  | _ => return none

def readProperties (handles : Handles) : Parser Properties := do
  let anchor ← readAnchor
  let tag ← readTag handles
  let anchor ← if anchor.isNone && tag.isSome then readAnchor else pure anchor
  match anchor with
  | none => return { tag }
  | some name => return { slot := some (← bindAnchor name), tag }

/-- The kind of node that may stand in a place. -/
inductive Place where
  | block
  /-- A block place where the items of a sequence need no indentation. -/
  | member
  | flow
  deriving DecidableEq, Repr

def Place.isBlock (place : Place) : Bool :=
  place != .flow

def omitted : Parser Node :=
  pure (.blank {})

variable (handles : Handles)

mutual

def node : Nat → Place → Parser Node
  | 0, _ => failure
  | depth + 1, place => do
    match ← peek with
    | some (.alias name) =>
      skip
      return .alias (← slotOf name)
    | _ =>
      let properties ← readProperties handles
      match ← peek with
      | some (.scalar style text) =>
        skip
        return .scalar properties style text
      | some .flowSequenceStart =>
        skip
        return .sequence properties (← flowItems depth true)
      | some .flowMappingStart =>
        skip
        return .mapping properties (← flowMembers depth true)
      | some token =>
        if token = .blockEntry && place = .member then
          return .sequence properties (← indentlessItems depth)
        else if token = .blockSequenceStart && place.isBlock then
          skip
          return .sequence properties (← blockItems depth)
        else if token = .blockMappingStart && place.isBlock then
          skip
          return .mapping properties (← blockMembers depth)
        else if properties = {} then failure
        else return .blank properties
      | none => if properties = {} then failure else return .blank properties

def blockItems : Nat → Parser (List Node)
  | 0 => failure
  | depth + 1 => do
    if ← accept .blockEntry then
      let item ← if ← isNext [.blockEntry, .blockEnd] then omitted else node depth .block
      return item :: (← blockItems depth)
    else if ← accept .blockEnd then return []
    else failure

def indentlessItems : Nat → Parser (List Node)
  | 0 => failure
  | depth + 1 => do
    if ← accept .blockEntry then
      let item ←
        if ← isNext [.blockEntry, .key, .value, .blockEnd] then omitted else node depth .block
      return item :: (← indentlessItems depth)
    else return []

def blockMembers : Nat → Parser (List (Node × Node))
  | 0 => failure
  | depth + 1 => do
    if ← accept .key then
      let key ← if ← isNext [.key, .value, .blockEnd] then omitted else node depth .member
      let value ← blockValue depth
      return (key, value) :: (← blockMembers depth)
    else if ← accept .blockEnd then return []
    else failure

def blockValue : Nat → Parser Node
  | 0 => failure
  | depth + 1 => do
    if ← accept .value then
      if ← isNext [.key, .value, .blockEnd] then omitted else node depth .member
    else omitted

def flowItems : Nat → Bool → Parser (List Node)
  | 0, _ => failure
  | depth + 1, isFirst => do
    if ← accept .flowSequenceEnd then return []
    else
      if !isFirst then
        if !(← accept .flowEntry) then failure
      if ← accept .key then
        let item ← flowPair depth
        return item :: (← flowItems depth false)
      else if ← accept .flowSequenceEnd then return []
      else
        let item ← node depth .flow
        return item :: (← flowItems depth false)

/-- A member that stands for a whole mapping in a flow sequence. Where its key is missing, the token
that shows it is passed over, whatever it is. -/
def flowPair : Nat → Parser Node
  | 0 => failure
  | depth + 1 => do
    let key ←
      if ← isNext [.value, .flowEntry, .flowSequenceEnd] then
        skip
        omitted
      else node depth .flow
    let value ←
      if ← accept .value then
        if ← isNext [.flowEntry, .flowSequenceEnd] then omitted else node depth .flow
      else omitted
    return .mapping {} [(key, value)]

def flowMembers : Nat → Bool → Parser (List (Node × Node))
  | 0, _ => failure
  | depth + 1, isFirst => do
    if ← accept .flowMappingEnd then return []
    else
      if !isFirst then
        if !(← accept .flowEntry) then failure
      if ← accept .key then
        let key ←
          if ← isNext [.value, .flowEntry, .flowMappingEnd] then omitted else node depth .flow
        let value ← flowValue depth
        return (key, value) :: (← flowMembers depth false)
      else if ← accept .flowMappingEnd then return []
      else
        let key ← node depth .flow
        return (key, .blank {}) :: (← flowMembers depth false)

def flowValue : Nat → Parser Node
  | 0 => failure
  | depth + 1 => do
    if ← accept .value then
      if ← isNext [.flowEntry, .flowMappingEnd] then omitted else node depth .flow
    else omitted

end

end Parser
end Gloss.Yaml
