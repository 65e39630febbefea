import Gloss.Yaml.Token

/-! The nodes of a YAML document. An alias names the slot of an anchor, not the node, so a document
is a tree even where a node refers to itself. -/
namespace Gloss.Yaml

structure Properties where
  slot : Option Nat := none
  tag : Option Octets := none
  deriving DecidableEq, Repr

inductive Node where
  | alias (slot : Nat)
  | scalar (properties : Properties) (style : ScalarStyle) (text : Text)
  | sequence (properties : Properties) (items : List Node)
  | mapping (properties : Properties) (members : List (Node × Node))

namespace Node

def blank (properties : Properties) : Node :=
  .scalar properties .plain []

mutual

/-- The anchored nodes of a tree with their slots, parents first. -/
def anchored : Node → List (Nat × Node)
  | .alias _ => []
  | .scalar properties style text =>
    (properties.slot.map fun slot => (slot, .scalar properties style text)).toList
  | .sequence properties items =>
    (properties.slot.map fun slot => (slot, .sequence properties items)).toList
      ++ anchoredItems items
  | .mapping properties members =>
    (properties.slot.map fun slot => (slot, .mapping properties members)).toList
      ++ anchoredMembers members

def anchoredItems : List Node → List (Nat × Node)
  | [] => []
  | item :: rest => item.anchored ++ anchoredItems rest

def anchoredMembers : List (Node × Node) → List (Nat × Node)
  | [] => []
  | (key, value) :: rest => key.anchored ++ value.anchored ++ anchoredMembers rest

end

mutual

/-- Number of marks that a node takes up: one for a scalar or an alias, two around a collection. -/
def weight : Node → Nat
  | .alias _ => 1
  | .scalar _ _ _ => 1
  | .sequence _ items => 2 + weightItems items
  | .mapping _ members => 2 + weightMembers members

def weightItems : List Node → Nat
  | [] => 0
  | item :: rest => item.weight + weightItems rest

def weightMembers : List (Node × Node) → Nat
  | [] => 0
  | (key, value) :: rest => key.weight + value.weight + weightMembers rest

end

end Node
end Gloss.Yaml
