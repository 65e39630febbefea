import Gloss.Yaml.Cursor

/-! The tokens of a YAML text. -/
namespace Gloss.Yaml

inductive ScalarStyle where
  | plain
  | singleQuoted
  | doubleQuoted
  | literal
  | folded
  deriving DecidableEq, Repr

/-- Part of a tag, as octets: escapes in tags denote octets, which need not make up a text. -/
abbrev Octets :=
  List Nat

def Octets.ofAscii (t : Text) : Octets :=
  t.map Char.toNat

inductive Token where
  | versionDirective (major minor : Nat)
  | tagDirective (handle expansion : Octets)
  | documentStart
  | documentEnd
  | blockSequenceStart
  | blockMappingStart
  | blockEnd
  | flowSequenceStart
  | flowSequenceEnd
  | flowMappingStart
  | flowMappingEnd
  | blockEntry
  | flowEntry
  | key
  | value
  | alias (name : Text)
  | anchor (name : Text)
  | tag (handle suffix : Octets)
  | scalar (style : ScalarStyle) (text : Text)
  deriving DecidableEq, Repr

end Gloss.Yaml
