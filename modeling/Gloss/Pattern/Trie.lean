import Gloss.Text.Basic

/-! A prefix tree over texts. Nodes lie in one array and refer to each other by their place in it;
node 0 is the root and spells the empty text. -/
namespace Gloss

namespace Trie

structure Node where
  /-- The nodes one character further, by ascending character. -/
  children : List (Char × Nat) := []
  terminal : Option Nat := none
  deriving DecidableEq, Repr

def insertEdge (c : Char) (target : Nat) : List (Char × Nat) → List (Char × Nat)
  | [] => [(c, target)]
  | edge :: rest =>
    if c.toNat < edge.1.toNat then (c, target) :: edge :: rest
    else edge :: insertEdge c target rest

def Node.addChild (node : Node) (c : Char) (target : Nat) : Node :=
  { node with children := insertEdge c target node.children }

end Trie

structure Trie where
  nodes : Array Trie.Node := #[{}]

namespace Trie

/-- The node that a node leads to with a character. The edges stand in ascending order, so that
halving them finds the same one. -/
def child? (trie : Trie) (node : Nat) (c : Char) : Option Nat :=
  trie.nodes[node]?.bind fun n => n.children.lookup c

def walk? (trie : Trie) (node : Nat) : Text → Option Nat
  | [] => some node
  | c :: rest =>
    match trie.child? node c with
    | none => none
    | some next => trie.walk? next rest

def terminal? (trie : Trie) (node : Nat) : Option Nat :=
  trie.nodes[node]?.bind (·.terminal)

/-- The tree with a child of `node` for a character, new unless there already, and that child. -/
def grow (trie : Trie) (node : Nat) (c : Char) : Trie × Nat :=
  match trie.child? node c with
  | some next => (trie, next)
  | none =>
    let next := trie.nodes.size
    (⟨(trie.nodes.modify node (·.addChild c next)).push {}⟩, next)

/-- The tree with all nodes that spell a text from `node` on, and the last of them. -/
def growPath (trie : Trie) (node : Nat) : Text → Trie × Nat
  | [] => (trie, node)
  | c :: rest =>
    let (grown, next) := trie.grow node c
    grown.growPath next rest

def mark (trie : Trie) (node value : Nat) : Trie :=
  ⟨trie.nodes.modify node ({ · with terminal := some value })⟩

end Trie
end Gloss
