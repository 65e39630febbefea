import Gloss.Text.Alphabetic
import Gloss.Text.Blank
import Gloss.Text.CaseFold

/-! Mechanical inflection. There is no morphology: forms are the term with fixed suffixes, and one
doubling rule for short words. A form that no text contains does no harm. -/
namespace Gloss

/-- Rules for the inflected forms generated for every canonical term. -/
structure InflectionRules where
  enabled : Bool := true
  /-- Suffixes, appended verbatim and in this order. -/
  suffixes : List Text := ["s".toList, "en".toList, "'s".toList, "n".toList]
  /-- Whether a short word in vowel and consonant also gets its doubled plural. -/
  doubleFinalConsonant : Bool := true
  /-- Length in characters of the longest word that doubles. -/
  doublingMaxChars : Nat := 5

namespace InflectionRules

inductive Fault where
  | blankSuffix (position : Nat)
  | doublingTooShort
  deriving DecidableEq, Repr

def Fault.message : Fault → String
  | .blankSuffix position => "inflection.suffixes[" ++ toString position ++ "] must not be blank"
  | .doublingTooShort => "inflection.doubling_max_chars must be >= 2"

/-- The first fault of the rules. Rules that are switched off are checked too. -/
def fault? (rules : InflectionRules) : Option Fault :=
  match rules.suffixes.findIdx? Text.isBlank with
  | some position => some (.blankSuffix position)
  | none =>
    if rules.doubleFinalConsonant && rules.doublingMaxChars < 2 then some .doublingTooShort
    else none

def isVowel (c : Char) : Bool :=
  (Text.lower c).all (['a', 'e', 'i', 'o', 'u', 'y'].contains ·)

/-- The doubled plural of a word of letters: `kat` gives `katten`. The word ends in one vowel and
one consonant and has at most `maxChars` characters. -/
def doubledForm? (maxChars : Nat) (term : Text) : Option Text :=
  match term.reverse with
  | last :: vowel :: before =>
    if term.length ≤ maxChars && term.all Text.isAlphabetic && !isVowel last && isVowel vowel
        && !before.head?.any isVowel then
      some (term ++ [last, 'e', 'n'])
    else none
  | _ => none

def addForm (forms : List Text) (form : Text) : List Text :=
  if forms.contains form then forms else forms ++ [form]

/-- The generated forms of a term, in rule order and without duplicates. A term that does not end
in a letter has none. -/
def forms (rules : InflectionRules) (term : Text) : List Text :=
  if rules.enabled && term.getLast?.any Text.isAlphabetic then
    let suffixed := (rules.suffixes.map (term ++ ·)).foldl addForm []
    let doubled :=
      if rules.doubleFinalConsonant then doubledForm? rules.doublingMaxChars term else none
    doubled.elim suffixed (addForm suffixed)
  else []

end InflectionRules
end Gloss
