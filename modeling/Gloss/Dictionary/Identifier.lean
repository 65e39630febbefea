import Gloss.Text.CaseFold

/-! Identifiers derived from display terms: runs of `a` to `z` and `0` to `9`, joined by single
underscores. -/
namespace Gloss.Identifier

/-- The characters an identifier keeps; every other one separates. -/
def isKept (c : Char) : Bool :=
  c.isLower || c.isDigit

/-- Keep the kept characters, with one underscore for every run of others that a kept character
follows. `gap` tells whether such a run has just been passed. -/
def squeeze (gap : Bool) : Text → Text
  | [] => []
  | c :: rest =>
    if isKept c then
      if gap then '_' :: c :: squeeze false rest else c :: squeeze false rest
    else squeeze true rest

/-- The identifier of a term. It is empty when the term holds no letter or digit to keep. -/
def ofTerm (term : Text) : Text :=
  squeeze false ((Text.foldCase term).dropWhile (!isKept ·))

end Gloss.Identifier
