import Gloss.Decode.Settings
import Gloss.Decode.Source
import Gloss.Engine.Glossary
import Gloss.Json.Format
import Gloss.Json.Reader
import Gloss.Yaml.Format

/-! Settings and definitions from files. A file is the bytes it holds, or nothing where it cannot be
read; it must be UTF-8. -/
namespace Gloss

def decodeFile (content : Option ByteArray) : Option Text :=
  (content.bind String.fromUTF8?).map String.toList

namespace Source

def ofYaml (text : Text) : Except SourceError Source :=
  match (Yaml.read text).bind (·.decode? Decode.source) with
  | some source => .ok source
  | none => .error .malformed

def ofJson (text : Text) : Except SourceError Source :=
  match (Json.read text).bind (Json.decode? (Decode.source Json.format)) with
  | some source => .ok source
  | none => .error .malformed

end Source

/-- The name behind the last slash of a path. Slashes at its end do not count. -/
def fileName (path : Text) : Text :=
  ((path.reverse.dropWhile (· == '/')).takeWhile (· != '/')).reverse

/-- What follows the last dot of a file name. A dot at its start does not count. -/
def extension? (name : Text) : Option Text :=
  match name.reverse.span (· != '.') with
  | (extension, _ :: _ :: _) => some extension.reverse
  | _ => none

/-- Whether a path is that of a YAML file. All others hold JSON. -/
def isYamlPath (path : Text) : Bool :=
  match extension? (fileName path) with
  | none => false
  | some extension => ["yaml".toList, "yml".toList].contains (extension.map Char.toLower)

def Source.ofFile (path : Text) (content : Option ByteArray) : Except SourceError Source :=
  match decodeFile content with
  | none => .error .unreadable
  | some text => if isYamlPath path then Source.ofYaml text else Source.ofJson text

/-- Why settings could not be had. -/
inductive SettingsError where
  | unreadable
  | malformed
  | invalid (fault : EngineSettings.Fault)

def SettingsError.message : SettingsError → String
  | .unreadable => "failed to read config file"
  | .malformed => "failed to parse YAML"
  | .invalid fault => fault.message

namespace EngineSettings

def validated (settings : EngineSettings) : Except SettingsError EngineSettings :=
  match settings.fault? with
  | some fault => .error (.invalid fault)
  | none => .ok settings

def ofYaml (text : Text) : Except SettingsError EngineSettings :=
  match (Yaml.read text).bind (·.decode? Decode.engineSettings) with
  | some settings => settings.validated
  | none => .error .malformed

def ofFile (content : Option ByteArray) : Except SettingsError EngineSettings :=
  match decodeFile content with
  | none => .error .unreadable
  | some text => ofYaml text

end EngineSettings

def Glossary.ofFile (path : Text) (content : Option ByteArray) (settings : EngineSettings) :
    Except GlossaryError Glossary := do
  let source ← (Source.ofFile path content).mapError .source
  Glossary.load source settings

end Gloss
