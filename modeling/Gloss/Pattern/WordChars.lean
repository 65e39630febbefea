import Gloss.Text.Alphabetic
import Gloss.Text.Mark
import Gloss.Text.Numeric

/-! Word boundaries. A match begins behind, and ends before, a character that is no word
character. -/
namespace Gloss

/-- Which characters make up words. Letters, numbers and combining marks always do; the mark of a
decomposed letter belongs to the letter before it. -/
structure WordChars where
  /-- Further word characters. With the hyphen, `risico-analyse` is one word. -/
  extra : List Char := ['-', '_']
  deriving DecidableEq, Repr

namespace WordChars

def isWordChar (words : WordChars) (c : Char) : Bool :=
  Text.isAlphabetic c || Text.isNumeric c || Text.isMark c || words.extra.contains c

/-- Whether a match may meet this neighbour: the edge of the document, or no word character. -/
def isBoundary (words : WordChars) : Option Char → Bool
  | none => true
  | some c => !words.isWordChar c

end WordChars
end Gloss
