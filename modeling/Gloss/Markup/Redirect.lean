/-! When a variant gets a cross-reference in place of a full definition. -/
namespace Gloss

/-- A variant is redirected when the matched text has at most `maxShortChars` characters, or fewer
than `minLengthRatio` times the characters of its term. -/
structure RedirectPolicy where
  maxShortChars : Nat := 3
  minLengthRatio : Float := 0.5

namespace RedirectPolicy

/-- Whether a variant of so many characters is redirected to a term of so many characters. The
counts are rounded to doubles and so is the product. -/
def isRedirectable (policy : RedirectPolicy) (matchedChars canonicalChars : Nat) : Bool :=
  matchedChars ≤ policy.maxShortChars
    || matchedChars.toUInt64.toFloat < policy.minLengthRatio * canonicalChars.toUInt64.toFloat

/-- Whether the ratio lies between zero and one. Not a number lies nowhere. -/
def isValid (policy : RedirectPolicy) : Bool :=
  0.0 ≤ policy.minLengthRatio && policy.minLengthRatio ≤ 1.0

end RedirectPolicy
end Gloss
