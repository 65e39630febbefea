import Gloss.Dictionary.Build
import Gloss.Markup.Vocabulary
import Gloss.Pattern.WordChars

/-! Settings for every stage: inflection, word boundaries and markup. -/
namespace Gloss

structure EngineSettings where
  version : Text := "1.0".toList
  name : Option Text := none
  inflection : InflectionRules := {}
  words : WordChars := {}
  markup : Vocabulary := {}

namespace EngineSettings

inductive Fault where
  | unsupportedVersion (version : Text)
  | inflection (fault : InflectionRules.Fault)
  | whiteWordChar (char : Char)
  | markup (fault : Vocabulary.Fault)

def hexCode (c : Char) : Text :=
  Nat.toDigits 16 c.toNat

/-- A white space character as it is shown in messages: in quotes, with an escape unless it is the
space. -/
def showWhite (c : Char) : Text :=
  match c with
  | ' ' => "' '".toList
  | '\t' => "'\\t'".toList
  | '\n' => "'\\n'".toList
  | '\r' => "'\\r'".toList
  | c => "'\\u\x7b".toList ++ hexCode c ++ "\x7d'".toList

def Fault.message : Fault → String
  | .unsupportedVersion version => "unsupported config version: " ++ String.ofList version
  | .inflection fault => "validation error: " ++ (BuildError.invalidRules fault).message
  | .whiteWordChar c =>
    "validation error: index.extra_word_chars must not contain whitespace, got "
      ++ String.ofList (showWhite c)
  | .markup fault => "validation error: " ++ fault.message

def supportedVersions : List Text :=
  ["1.0".toList, "1".toList]

/-- The first fault of the settings: version, inflection, word characters, markup. -/
def fault? (settings : EngineSettings) : Option Fault :=
  if !supportedVersions.contains settings.version then some (.unsupportedVersion settings.version)
  else
    (settings.inflection.fault?.map .inflection).or
      (((settings.words.extra.find? Text.isWhite).map .whiteWordChar).or
        (settings.markup.fault?.map .markup))

end EngineSettings
end Gloss
