import Gloss.Text.Basic

/-! Escaping for attribute values and generated labels. -/
namespace Gloss.Markup

/-- What stands for a character in escaped text. Only the five delimiters change. -/
def escapeChar : Char → Text
  | '&' => ['&', 'a', 'm', 'p', ';']
  | '<' => ['&', 'l', 't', ';']
  | '>' => ['&', 'g', 't', ';']
  | '"' => ['&', 'q', 'u', 'o', 't', ';']
  | '\'' => ['&', '#', '3', '9', ';']
  | c => [c]

def escape (t : Text) : Text :=
  t.flatMap escapeChar

end Gloss.Markup
