import Gloss.Yaml.Parser

/-! Reading a text that holds one YAML document. -/
namespace Gloss.Yaml

structure Document where
  root : Node
  /-- The nodes that aliases stand for, by slot. Of several nodes in one slot the last counts, which
  comes first here. -/
  anchors : List (Nat × Node)

def Document.ofRoot (root : Node) : Document :=
  ⟨root, root.anchored.reverse⟩

structure Directives where
  hasVersion : Bool := false
  handles : Parser.Handles := []

def standardHandles : Parser.Handles :=
  [(.ofAscii "!".toList, .ofAscii "!".toList),
   (.ofAscii "!!".toList, .ofAscii "tag:yaml.org,2002:".toList)]

/-- Read directives. There is at most one version, which must be 1.1 or 1.2, and at most one
definition for a handle. -/
def readDirectives (directives : Directives) : List Token → Option (Directives × List Token)
  | .versionDirective major minor :: rest =>
    if directives.hasVersion || major ≠ 1 || (minor ≠ 1 && minor ≠ 2) then none
    else readDirectives { directives with hasVersion := true } rest
  | .tagDirective handle expansion :: rest =>
    if (directives.handles.lookup handle).isSome then none
    else
      readDirectives
        { directives with handles := directives.handles ++ [(handle, expansion)] } rest
  | tokens => some (directives, tokens)

def endsContent : Option Token → Bool
  | none => true
  | some (.versionDirective _ _) => true
  | some (.tagDirective _ _) => true
  | some .documentStart => true
  | some .documentEnd => true
  | some _ => false

def readRoot (handles : Parser.Handles) (tokens : List Token) : Option (Node × List Token) :=
  let depth := 3 * (tokens.length + 1)
  ((Parser.node (handles ++ standardHandles) depth .block).run { tokens }).map
    fun (root, state) => (root, state.tokens)

def readDocument (tokens : List Token) : Option (Node × List Token) :=
  match tokens with
  | [] => some (.blank {}, [])
  | .documentEnd :: _ => none
  | first :: _ =>
    if endsContent (some first) then
      match readDirectives {} tokens with
      | some (directives, .documentStart :: rest) =>
        if endsContent rest.head? then some (.blank {}, rest) else readRoot directives.handles rest
      | _ => none
    else readRoot [] tokens

/-- Read a text. Nothing may follow the document but marks of its end. -/
def read (t : Text) : Option Document := do
  let (root, rest) ← readDocument (← tokens t)
  guard (rest.all (· == .documentEnd))
  return .ofRoot root

end Gloss.Yaml
