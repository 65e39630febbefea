import Gloss.Annotator
import Gloss.Engine.Settings

/-! A glossary: a definitions document made ready to annotate with, by given settings. -/
namespace Gloss

/-- Why a definitions document could not be had. -/
inductive SourceError where
  | unreadable
  | malformed
  deriving DecidableEq, Repr

def SourceError.message : SourceError → String
  | .unreadable => "failed to read definitions"
  | .malformed => "failed to parse definitions"

/-- Why there is no glossary. -/
inductive GlossaryError where
  | source (error : SourceError)
  | dictionary (error : BuildError)
  | markup (fault : Vocabulary.Fault)

namespace GlossaryError

def cause : GlossaryError → String
  | .source error => error.message
  | .dictionary error => error.message
  | .markup fault => fault.message

def message : GlossaryError → String
  | .markup fault => "annotator setup failure: " ++ fault.message
  | error => "dictionary failure: " ++ error.cause

end GlossaryError

structure Glossary where
  annotator : Annotator

namespace Glossary

/-- The glossary of a definitions document. Version and word characters of the settings are not
looked at. -/
def load (source : Source) (settings : EngineSettings) : Except GlossaryError Glossary := do
  let dictionary ← (Dictionary.build source settings.inflection).mapError .dictionary
  let annotator ← (Annotator.new dictionary settings.markup settings.words).mapError .markup
  return ⟨annotator⟩

def dictionary (glossary : Glossary) : Dictionary :=
  glossary.annotator.dictionary

def strip (glossary : Glossary) (html : Text) : Text :=
  Markup.strip glossary.annotator.vocabulary html

/-- Annotate a text, by itself or within a scope that it adds to. -/
def annotate (glossary : Glossary) (text : Text) (scope : Option Scope) : Text × Option Scope :=
  let annotated := glossary.annotator.annotateWithin (scope.getD {}) text
  (annotated.html, scope.map fun _ => annotated.scope)

structure Stats where
  build : Dictionary.Stats
  patterns : Nat
  nodes : Nat
  deriving DecidableEq, Repr

def stats (glossary : Glossary) : Stats :=
  ⟨glossary.dictionary.stats, glossary.annotator.index.size, glossary.annotator.index.nodeCount⟩

end Glossary
end Gloss
