import Gloss.Pattern.Trie
import Gloss.Pattern.WordChars
import Gloss.Text.CaseFold

/-! The texts to look for, and where a document has them. Case is ignored on both sides. -/
namespace Gloss

/-- A registered text with the value it stands for. -/
structure Literal (P : Type) where
  payload : P
  text : Text

/-- Registered texts, found by the prefix tree of their case folds. A terminal of the tree is the
ordinal of a literal. -/
structure PatternIndex (P : Type) where
  words : WordChars := {}
  trie : Trie := {}
  literals : Array (Literal P) := #[]

/-- A registered text found in a document. Offsets count bytes; the match ends before `stop`. -/
structure Candidate (P : Type) where
  text : Text
  payload : P
  start : Nat
  stop : Nat
  ordinal : Nat

namespace PatternIndex

variable {P : Type}

/-- Register a text. The flag tells whether it was new: the empty text is refused, and so is one
whose case fold is registered already. -/
def add (index : PatternIndex P) (text : Text) (payload : P) : PatternIndex P × Bool :=
  if text.isEmpty then (index, false)
  else
    let (trie, node) := index.trie.growPath 0 (Text.foldCase text)
    match trie.terminal? node with
    | some _ => ({ index with trie }, false)
    | none =>
      ({ index with
          trie := trie.mark node index.literals.size
          literals := index.literals.push ⟨payload, text⟩ }, true)

def ofList (words : WordChars) (texts : List (Text × P)) : PatternIndex P :=
  texts.foldl (fun index entry => (index.add entry.1 entry.2).1) { words }

def get? (index : PatternIndex P) (text : Text) : Option P := do
  let node ← index.trie.walk? 0 (Text.foldCase text)
  let ordinal ← index.trie.terminal? node
  let literal ← index.literals[ordinal]?
  return literal.payload

def originalText? (index : PatternIndex P) (ordinal : Nat) : Option Text :=
  index.literals[ordinal]?.map (·.text)

def size (index : PatternIndex P) : Nat :=
  index.literals.size

def nodeCount (index : PatternIndex P) : Nat :=
  index.trie.nodes.size

def candidate? (index : PatternIndex P) (node start : Nat) (matched : Text) (next : Option Char) :
    Option (Candidate P) := do
  let ordinal ← index.trie.terminal? node
  let literal ← index.literals[ordinal]?
  guard (index.words.isBoundary next)
  return ⟨matched, literal.payload, start, start + Text.byteLength matched, ordinal⟩

/-- The candidates with one start, by ascending length. A node counts only once the whole fold of
a character has been walked. -/
def candidatesFrom (index : PatternIndex P) (start node : Nat) (matched : Text) :
    Text → List (Candidate P)
  | [] => []
  | c :: rest =>
    match index.trie.walk? node (Text.lower c) with
    | none => []
    | some next =>
      let matched := matched ++ [c]
      (index.candidate? next start matched rest.head?).toList
        ++ index.candidatesFrom start next matched rest

/-- The candidates that start at `start` or later, where `previous` stands before. -/
def findFrom (index : PatternIndex P) (previous : Option Char) (start : Nat) :
    Text → List (Candidate P)
  | [] => []
  | c :: rest =>
    (if index.words.isBoundary previous then index.candidatesFrom start 0 [] (c :: rest) else [])
      ++ index.findFrom (some c) (start + c.utf8Size) rest

/-- Every registered text in a document on word boundaries, by start and then by end. Matches may
overlap. -/
def find (index : PatternIndex P) (document : Text) : List (Candidate P) :=
  index.findFrom none 0 document

end PatternIndex
end Gloss
