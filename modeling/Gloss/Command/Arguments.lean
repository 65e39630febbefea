import Gloss.Text.Basic

/-! The arguments of the program. Options and fields may come in any order; behind two dashes all
are fields. -/
namespace Gloss.Command

/-- What the program is asked to do. Without fields, the lines of the input are the fields. -/
inductive Invocation where
  | help
  | version
  | annotate (definitions : Text) (settings : Option Text) (sharesScope : Bool) (fields : List Text)
  | stats (definitions : Text) (settings : Option Text)
  | strip (settings : Option Text) (fields : List Text)
  deriving DecidableEq, Repr

/-- What one command takes. All take settings. -/
structure Grammar where
  takesDefinitions : Bool
  takesScope : Bool
  takesFields : Bool

/-- The options and fields read so far, fields in reverse. -/
structure Options where
  definitions : Option Text := none
  settings : Option Text := none
  sharesScope : Bool := false
  fields : List Text := []

inductive Stop where
  | help
  | misuse
  deriving DecidableEq, Repr

inductive PathOption where
  | definitions
  | settings

def PathOption.ofName? (name : Text) : Option PathOption :=
  if name = "definitions".toList then some .definitions
  else if name = "config".toList then some .settings
  else none

def PathOption.ofLetter? : Char → Option PathOption
  | 'd' => some .definitions
  | 'c' => some .settings
  | _ => none

/-- Set an option. It must belong to the command, be new, and name something. -/
def Options.set (grammar : Grammar) (options : Options) (option : PathOption) (path : Text) :
    Except Stop Options :=
  if path.isEmpty then .error .misuse
  else
    match option with
    | .definitions =>
      if grammar.takesDefinitions && options.definitions.isNone then
        .ok { options with definitions := some path }
      else .error .misuse
    | .settings =>
      if options.settings.isNone then .ok { options with settings := some path }
      else .error .misuse

def Options.add (grammar : Grammar) (options : Options) (field : Text) : Except Stop Options :=
  if grammar.takesFields then .ok { options with fields := field :: options.fields }
  else .error .misuse

/-- Whether an argument is an option. A single dash is none. -/
def isOption (argument : Text) : Bool :=
  argument.head? == some '-' && argument != ['-']

def splitValue (option : Text) : Text × Option Text :=
  let (name, rest) := option.span (· != '=')
  (name, rest.tail?)

/-- The value of an option with a short name, where it is attached. An equals sign before it does
not belong to it. -/
def attachedValue? (attached : Text) : Option Text :=
  match attached with
  | [] => none
  | '=' :: value => some value
  | value => some value

def readOptions (grammar : Grammar) (options : Options) : List Text → Except Stop Options
  | [] => .ok options
  | ['-', '-'] :: fields => fields.foldlM (Options.add grammar) options
  | ('-' :: '-' :: option) :: rest =>
    let (name, value) := splitValue option
    match PathOption.ofName? name, value, rest with
    | some found, some path, rest => do readOptions grammar (← options.set grammar found path) rest
    | some found, none, path :: rest =>
      if isOption path then .error .misuse
      else do readOptions grammar (← options.set grammar found path) rest
    | some _, none, [] => .error .misuse
    | none, some _, _ => .error .misuse
    | none, none, rest =>
      if name = "help".toList then .error .help
      else if name = "shared-scope".toList && grammar.takesScope && !options.sharesScope then
        readOptions grammar { options with sharesScope := true } rest
      else .error .misuse
  | ('-' :: letter :: attached) :: rest =>
    match PathOption.ofLetter? letter, attachedValue? attached, rest with
    | some found, some path, rest => do readOptions grammar (← options.set grammar found path) rest
    | some found, none, path :: rest =>
      if isOption path then .error .misuse
      else do readOptions grammar (← options.set grammar found path) rest
    | some _, none, [] => .error .misuse
    | none, _, _ => if letter = 'h' then .error .help else .error .misuse
  | field :: rest => do readOptions grammar (← options.add grammar field) rest

def commandNames : List Text :=
  ["annotate".toList, "stats".toList, "strip".toList, "help".toList]

def readCommand (name : Text) (arguments : List Text) : Except Stop Invocation :=
  if name = "annotate".toList then do
    let options ← readOptions ⟨true, true, true⟩ {} arguments
    let some definitions := options.definitions | throw .misuse
    return .annotate definitions options.settings options.sharesScope options.fields.reverse
  else if name = "stats".toList then do
    let options ← readOptions ⟨true, false, false⟩ {} arguments
    let some definitions := options.definitions | throw .misuse
    return .stats definitions options.settings
  else if name = "strip".toList then do
    let options ← readOptions ⟨false, false, true⟩ {} arguments
    return .strip options.settings options.fields.reverse
  else if name = "help".toList && arguments.length ≤ 1 && arguments.all commandNames.contains then
    .error .help
  else .error .misuse

def Invocation.ofArguments? (arguments : List Text) : Option Invocation :=
  match arguments with
  | [] => none
  | ('-' :: 'V' :: _) :: _ => some .version
  | ('-' :: 'h' :: _) :: _ => some .help
  | name :: rest =>
    if name = "--version".toList then some .version
    else if name = "--help".toList then some .help
    else
      match readCommand name rest with
      | .ok invocation => some invocation
      | .error .help => some .help
      | .error .misuse => none

end Gloss.Command
