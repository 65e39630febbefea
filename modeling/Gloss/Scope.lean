import Gloss.Text.Basic

/-! The canonical terms that one unit of text has defined already. A term gets its definition where
it occurs first. -/
namespace Gloss

/-- Keys of canonical terms, each of them once. Only which keys there are counts, not their order. -/
structure Scope where
  keys : List Text := []
  nodup : keys.Nodup := by first | exact List.nodup_nil | decide
  deriving Repr

namespace Scope

def contains (scope : Scope) (key : Text) : Bool :=
  scope.keys.contains key

theorem contains_iff {scope : Scope} {key : Text} :
    scope.contains key = true ↔ key ∈ scope.keys :=
  List.contains_iff_mem

/-- The scope with a key. The flag tells whether the key is new. -/
def mark (scope : Scope) (key : Text) : Scope × Bool :=
  if h : scope.contains key then (scope, false)
  else (⟨key :: scope.keys, List.nodup_cons.mpr ⟨mt contains_iff.mpr h, scope.nodup⟩⟩, true)

def size (scope : Scope) : Nat :=
  scope.keys.length

def isEmpty (scope : Scope) : Bool :=
  scope.keys.isEmpty

def agrees (a b : Scope) : Bool :=
  a.keys.all b.contains && b.keys.all a.contains

end Scope
end Gloss
