import Gloss.Dictionary.Build

/-! Reading a dictionary. -/
namespace Gloss.Dictionary

/-- Every entry in registration order: the terms, then the variants. -/
def entries (dictionary : Dictionary) : List Entry :=
  dictionary.terms.map .term ++ dictionary.variants.map .variant

def entry? (dictionary : Dictionary) (ordinal : Nat) : Option Entry :=
  dictionary.entries[ordinal]?

def termByKey? (dictionary : Dictionary) (key : Text) : Option Term :=
  dictionary.terms.find? (·.key == key)

def term? (dictionary : Dictionary) (name : Text) : Option Term :=
  dictionary.termByKey? (Text.foldCase name)

def termById? (dictionary : Dictionary) (id : Text) : Option Term :=
  dictionary.terms.find? (·.id == id)

def canonicalOf? (dictionary : Dictionary) (ordinal : Nat) : Option Term :=
  (dictionary.entry? ordinal).bind fun entry => dictionary.termByKey? entry.canonicalKey

structure Stats where
  terms : Nat
  variants : Nat
  dropped : Nat
  deriving DecidableEq, Repr

def stats (dictionary : Dictionary) : Stats :=
  ⟨dictionary.terms.length, dictionary.variants.length, dictionary.dropped⟩

end Gloss.Dictionary
