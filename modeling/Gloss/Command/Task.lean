import Gloss.Command.Arguments
import Gloss.Engine.File

/-! What the program does with the fields it is given: one answer for each, on a line of its own. -/
namespace Gloss.Command

/-- What is done with fields. -/
inductive Task where
  /-- Annotate. With a scope, fields share it. -/
  | annotate (glossary : Glossary) (scope : Option Scope)
  | strip (vocabulary : Vocabulary)

/-- Answer a field. The task that is left answers the next one. -/
def Task.answer (task : Task) (field : Text) : Text × Task :=
  match task with
  | .annotate glossary scope =>
    let (html, scope) := glossary.annotate field scope
    (html, .annotate glossary scope)
  | .strip vocabulary => (Markup.strip vocabulary field, task)

def Task.answerFields (task : Task) : List Text → Text
  | [] => []
  | field :: rest =>
    let (answer, left) := task.answer field
    answer ++ '\n' :: left.answerFields rest

/-- The answers to lines of bytes, and the task that is left. A line that is not UTF-8 ends it. -/
def Task.answerLines (task : Task) : List (List UInt8) → Text × Option Task
  | [] => ([], some task)
  | line :: rest =>
    match String.fromUTF8? ⟨line.toArray⟩ with
    | none => ([], none)
    | some field =>
      let (answer, left) := task.answer field.toList
      let (later, left) := left.answerLines rest
      (answer ++ '\n' :: later, left)

/-- Bytes cut into lines, and what follows the last line feed. A carriage return before a line feed
goes with it. `before` holds the start of the first line in reverse. -/
def splitLines (before : List UInt8) : List UInt8 → List (List UInt8) × List UInt8
  | [] => ([], before.reverse)
  | 10 :: rest =>
    let line := if before.head? = some 13 then before.tail else before
    let (lines, tail) := splitLines [] rest
    (line.reverse :: lines, tail)
  | byte :: rest => splitLines (byte :: before) rest

/-- What an invocation comes down to. -/
inductive Work where
  | print (text : Text)
  | answer (task : Task) (fields : List Text)

/-- Why there is nothing to work with. -/
inductive LoadError where
  | settings (error : SettingsError)
  | glossary (error : GlossaryError)

def LoadError.message : LoadError → String
  | .settings error => error.message
  | .glossary error => error.message

def renderStats (stats : Glossary.Stats) : Text :=
  let line := fun name value => "  \"" ++ name ++ "\": " ++ toString value
  let lines :=
    [line "dropped" stats.build.dropped, line "patterns" stats.patterns,
     line "terms" stats.build.terms, line "trie_nodes" stats.nodes,
     line "variants" stats.build.variants]
  ("\x7b\n" ++ ",\n".intercalate lines ++ "\n\x7d\n").toList

def usage : Text :=
  ("Annotate text with glossary definitions\n\nUsage: termlink <COMMAND>\n\n"
    ++ "Commands:\n  annotate\n  stats\n  strip\n  help\n").toList

section Loading

variable {m : Type → Type} [Monad m] (readFile : Text → m (Option ByteArray))

def loadSettings (path : Option Text) : ExceptT LoadError m EngineSettings :=
  match path with
  | none => pure {}
  | some path => do
    let content ← readFile path
    ExceptT.mk (pure ((EngineSettings.ofFile content).mapError .settings))

def loadGlossary (definitions : Text) (settings : Option Text) : ExceptT LoadError m Glossary := do
  let settings ← loadSettings readFile settings
  let content ← readFile definitions
  ExceptT.mk (pure ((Glossary.ofFile definitions content settings).mapError .glossary))

def prepare : Invocation → ExceptT LoadError m Work
  | .help => pure (.print usage)
  | .version => pure (.print "termlink 0.1.0\n".toList)
  | .annotate definitions settings sharesScope fields => do
    let glossary ← loadGlossary readFile definitions settings
    return .answer (.annotate glossary (if sharesScope then some {} else none)) fields
  | .stats definitions settings => do
    let glossary ← loadGlossary readFile definitions settings
    return .print (renderStats glossary.stats)
  | .strip settings fields => do
    let settings ← loadSettings readFile settings
    return .answer (.strip settings.markup) fields

end Loading

/-- What a run leaves behind. -/
structure Report where
  exitCode : UInt32
  output : Text

def Work.run (input : List UInt8) : Work → Report
  | .print text => ⟨0, text⟩
  | .answer task [] =>
    let (lines, tail) := splitLines [] input
    let (output, left) := task.answerLines (if tail.isEmpty then lines else lines ++ [tail])
    ⟨if left.isSome then 0 else 1, output⟩
  | .answer task fields => ⟨0, task.answerFields fields⟩

/-- A whole run, given files and input: code 2 for misuse, 1 for whatever cannot be loaded or
read. -/
def run (files : Text → Option ByteArray) (input : List UInt8) (arguments : List Text) : Report :=
  match Invocation.ofArguments? arguments with
  | none => ⟨2, []⟩
  | some invocation =>
    let readFile : Text → Id (Option ByteArray) := fun path => pure (files path)
    match Id.run (prepare readFile invocation).run with
    | .error _ => ⟨1, []⟩
    | .ok work => work.run input

end Gloss.Command
