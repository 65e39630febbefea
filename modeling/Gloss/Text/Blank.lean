import Gloss.Text.Basic

/-! White space: the White_Space property, trimming and words. -/
namespace Gloss.Text

/-- Whether a character has the White_Space property. -/
def isWhite (c : Char) : Bool :=
  let code := c.toNat
  (0x9 ≤ code && code ≤ 0xD) || code == 0x20 || code == 0x85 || code == 0xA0 || code == 0x1680
    || (0x2000 ≤ code && code ≤ 0x200A) || code == 0x2028 || code == 0x2029 || code == 0x202F
    || code == 0x205F || code == 0x3000

/-- Whether a text holds nothing but white space. The empty text is blank. -/
def isBlank (t : Text) : Bool :=
  t.all isWhite

def trimStart (t : Text) : Text :=
  t.dropWhile isWhite

def trimEnd (t : Text) : Text :=
  (t.reverse.dropWhile isWhite).reverse

def trim (t : Text) : Text :=
  t.trimStart.trimEnd

/-- The first run of characters other than white space. -/
def firstWord? (t : Text) : Option Text :=
  match t.trimStart.takeWhile (!isWhite ·) with
  | [] => none
  | word => some word

def nonBlank? (t : Text) : Option Text :=
  match t.trim with
  | [] => none
  | trimmed => some trimmed

end Gloss.Text
