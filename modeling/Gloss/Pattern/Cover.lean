import Gloss.Pattern.Index

/-! Choosing matches that do not overlap: from left to right, at each start the longest. -/
namespace Gloss

/-- A chosen match. Offsets count bytes. -/
structure Match (P : Type) where
  text : Text
  payload : P
  start : Nat
  stop : Nat

namespace Candidate

variable {P : Type}

def length (candidate : Candidate P) : Nat :=
  candidate.stop - candidate.start

def isEmpty (candidate : Candidate P) : Bool :=
  candidate.start == candidate.stop

def toMatch (candidate : Candidate P) : Match P :=
  ⟨candidate.text, candidate.payload, candidate.start, candidate.stop⟩

/-- Whether a candidate comes first: by start, then the longer, then the lower ordinal. -/
def precedes (a b : Candidate P) : Bool :=
  if a.start ≠ b.start then a.start < b.start
  else if a.length ≠ b.length then b.length < a.length
  else a.ordinal ≤ b.ordinal

def insertOrdered (a : Candidate P) : List (Candidate P) → List (Candidate P)
  | [] => [a]
  | b :: rest => if a.precedes b then a :: b :: rest else b :: insertOrdered a rest

def arrange (candidates : List (Candidate P)) : List (Candidate P) :=
  candidates.foldr insertOrdered []

/-- Of ordered candidates, keep each that starts at or behind the end of the last one kept. -/
def sweep (covered : Nat) : List (Candidate P) → List (Candidate P)
  | [] => []
  | a :: rest => if a.start < covered then sweep covered rest else a :: sweep a.stop rest

/-- The chosen matches of a list of candidates, in ascending order. Empty candidates are never
chosen. -/
def resolve (candidates : List (Candidate P)) : List (Match P) :=
  (sweep 0 (arrange (candidates.filter (!·.isEmpty)))).map toMatch

end Candidate
end Gloss
