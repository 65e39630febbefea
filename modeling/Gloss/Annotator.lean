import Gloss.Dictionary.Lookup
import Gloss.Markup.Render
import Gloss.Markup.Strip
import Gloss.Pattern.Cover
import Gloss.Scope

/-! Annotating texts. Every match is replaced by a definition, a cross-reference or itself; what
lies between the matches is copied. -/
namespace Gloss

/-- A dictionary made ready to look for. The payload of a pattern is the ordinal of its entry. -/
structure Annotator where
  dictionary : Dictionary
  index : PatternIndex Nat
  vocabulary : Vocabulary

/-- What became of the matches of a text. Those not counted here stayed as they were. -/
structure Tally where
  matched : Nat := 0
  defined : Nat := 0
  redirected : Nat := 0
  deriving DecidableEq, Repr

structure Annotated where
  html : Text
  scope : Scope
  tally : Tally

namespace Annotator

def patterns (dictionary : Dictionary) : List (Text × Nat) :=
  dictionary.entries.zipIdx.map fun (entry, ordinal) => (entry.text, ordinal)

/-- The annotator of a dictionary, whatever the vocabulary holds. -/
def ofDictionary (dictionary : Dictionary) (vocabulary : Vocabulary) (words : WordChars) :
    Annotator where
  dictionary
  index := PatternIndex.ofList words (patterns dictionary)
  vocabulary

def new (dictionary : Dictionary) (vocabulary : Vocabulary) (words : WordChars) :
    Except Vocabulary.Fault Annotator :=
  match vocabulary.fault? with
  | some fault => .error fault
  | none => .ok (ofDictionary dictionary vocabulary words)

def withDefaults (dictionary : Dictionary) : Annotator :=
  ofDictionary dictionary {} {}

/-- The entries found in a text: without overlap, from left to right, the longest first. -/
def find (annotator : Annotator) (text : Text) : List (Match Nat) :=
  Candidate.resolve (annotator.index.find text)

def meaning? (annotator : Annotator) (found : Match Nat) : Option (Entry × Term) := do
  let entry ← annotator.dictionary.entry? found.payload
  let term ← annotator.dictionary.termByKey? entry.canonicalKey
  return (entry, term)

/-- Whether a match is redirected: a variant, and too short beside its term. Characters are
counted as they stand in the text. -/
def isRedirected (annotator : Annotator) (found : Match Nat) (entry : Entry) (term : Term) : Bool :=
  entry.kind.isVariant
    && annotator.vocabulary.redirect.isRedirectable found.text.length term.name.length

/-- What a match is replaced by. Cross-references leave the scope alone. -/
def render (annotator : Annotator) (scope : Scope) (found : Match Nat) : Annotated :=
  match annotator.meaning? found with
  | none => ⟨found.text, scope, { matched := 1 }⟩
  | some (entry, term) =>
    if annotator.isRedirected found entry term then
      ⟨Markup.renderReference annotator.vocabulary found.text term, scope,
        { matched := 1, redirected := 1 }⟩
    else
      let (marked, isNew) := scope.mark term.key
      if isNew then
        ⟨Markup.renderDefinition annotator.vocabulary found.text term entry.kind.variantKind?,
          marked, { matched := 1, defined := 1 }⟩
      else ⟨found.text, scope, { matched := 1 }⟩

def append (first second : Annotated) : Annotated where
  html := first.html ++ second.html
  scope := second.scope
  tally :=
    { matched := first.tally.matched + second.tally.matched
      defined := first.tally.defined + second.tally.defined
      redirected := first.tally.redirected + second.tally.redirected }

/-- Replace matches in the part of a text that starts at `offset`. -/
def replaceFrom (annotator : Annotator) (scope : Scope) (offset : Nat) (rest : Text) :
    List (Match Nat) → Annotated
  | [] => ⟨rest, scope, {}⟩
  | found :: later =>
    let (before, tail) := Text.splitAtByte (found.start - offset) rest
    let behind := (Text.splitAtByte (found.stop - found.start) tail).2
    let rendered := annotator.render scope found
    append ⟨before, scope, {}⟩
      (append rendered (annotator.replaceFrom rendered.scope found.stop behind later))

/-- Annotate a text, and add what it defines to a scope. -/
def annotateWithin (annotator : Annotator) (scope : Scope) (text : Text) : Annotated :=
  annotator.replaceFrom scope 0 text (annotator.find text)

def annotate (annotator : Annotator) (text : Text) : Text :=
  (annotator.annotateWithin {} text).html

end Annotator
end Gloss
