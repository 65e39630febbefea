import Gloss.Text.Basic

/-! What a settings or definitions document looks like to a decoder, whatever format it is written
in. A format tells the shape of a node; what the shape means is up to the field it stands in. -/
namespace Gloss.Decode

/-- The readings of a scalar, each for readers that want just that. -/
structure Scalar where
  text? : Option Text := none
  /-- As a text, where the field takes other things too: the scalar itself must be one. -/
  literal? : Option Text := none
  flag? : Option Bool := none
  natural? : Option Nat := none
  real? : Option Float := none
  /-- Whether it stands for no value. Neither yes nor no is a fault. -/
  absent? : Option Bool := some false
  /-- Whether it also stands for a list or a record with nothing in it. -/
  isVoid : Bool := false

inductive Shape (Node : Type) where
  | scalar (readings : Scalar)
  /-- An opaque list is one only to readers that want a list. -/
  | list (isOpaque : Bool) (items : List Node)
  | record (members : List (Node × Node))

/-- A computation that may fail, with an allowance for the references it may still follow. -/
abbrev Decoder :=
  StateT Nat Option

structure Format (Node : Type) where
  shape : Node → Decoder (Shape Node)
  /-- Whether a record may be written as the list of its fields. -/
  positionalRecords : Bool

end Gloss.Decode
