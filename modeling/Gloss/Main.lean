import Gloss.Command.Task

/-! The program: it reads files and the input, and prints answers. -/
open Gloss.Command

def readFile (path : Gloss.Text) : IO (Option ByteArray) := do
  try
    return some (← IO.FS.readBinFile (String.ofList path))
  catch _ => return none

/-- Answer the lines of the input as they come. -/
partial def answerInput (task : Task) (before : List UInt8) : IO UInt32 := do
  let chunk ← (← IO.getStdin).read 65536
  let (lines, tail) := splitLines before.reverse chunk.toList
  let atEnd := chunk.isEmpty
  let (output, left) :=
    task.answerLines (if atEnd && !tail.isEmpty then lines ++ [tail] else lines)
  IO.print (String.ofList output)
  (← IO.getStdout).flush
  match left with
  | none =>
    IO.eprintln "Error: stream did not contain valid UTF-8"
    return 1
  | some task => if atEnd then return 0 else answerInput task tail

def main (arguments : List String) : IO UInt32 := do
  match Invocation.ofArguments? (arguments.map String.toList) with
  | none =>
    IO.eprint (String.ofList usage)
    return 2
  | some invocation =>
    match ← (prepare readFile invocation).run with
    | .error error =>
      IO.eprintln ("Error: " ++ error.message)
      return 1
    | .ok (.print text) =>
      IO.print (String.ofList text)
      return 0
    | .ok (.answer task []) => answerInput task []
    | .ok (.answer task fields) =>
      IO.print (String.ofList (task.answerFields fields))
      return 0
