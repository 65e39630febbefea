import Gloss.Decode.Shape
import Gloss.Yaml.CoreSchema
import Gloss.Yaml.Document

/-! YAML documents as seen by decoders. -/
namespace Gloss.Yaml

def coreTag (name : String) : Octets :=
  .ofAscii ("tag:yaml.org,2002:".toList ++ name.toList)

def isLocalTag (tag : Octets) : Bool :=
  tag.head? == some '!'.toNat
    && (String.fromUTF8? ⟨(tag.map UInt8.ofNat).toArray⟩).isSome

/-- Whether a scalar may be read as a value with a tag: plain ones may whatever their tag, literal
ones with just that tag. -/
def readsAs (name : String) (properties : Properties) (style : ScalarStyle) : Bool :=
  match style with
  | .plain => true
  | .literal => properties.tag == some (coreTag name)
  | _ => false

/-- Whether a scalar stands for no value. The tag of null allows only the spellings of null. -/
def absence (properties : Properties) (style : ScalarStyle) (text : Text) : Option Bool :=
  if style ≠ .plain then some false
  else
    match properties.tag with
    | none => some (text.isEmpty || isNull text)
    | some tag =>
      if tag = coreTag "null" then (if isNull text then some true else none) else some false

def isTextual (properties : Properties) (style : ScalarStyle) (text : Text) : Bool :=
  match properties.tag with
  | none => style ≠ .plain || isText text
  | some tag =>
    if isLocalTag tag || ["bool", "int", "float", "null"].any (coreTag · == tag) then false
    else if tag.head? = some '!'.toNat && style = .plain then isText text
    else true

/-- The readings of a scalar. Any scalar is a text where a text is wanted. -/
def readings (properties : Properties) (style : ScalarStyle) (text : Text) : Decode.Scalar where
  text? := some text
  literal? := if isTextual properties style text then some text else none
  flag? := if readsAs "bool" properties style then readFlag text else none
  natural? := if readsAs "int" properties style then readNatural Text.wordLimit text else none
  real? := if readsAs "float" properties style then readReal text else none
  absent? := absence properties style text
  isVoid := style == .plain && text.isEmpty

def Node.shape? : Node → Option (Decode.Shape Node)
  | .alias _ => none
  | .scalar properties style text => some (.scalar (readings properties style text))
  | .sequence properties items => some (.list (properties.tag.any isLocalTag) items)
  | .mapping _ members => some (.record members)

def spendReference : Decode.Decoder Unit := do
  match ← get with
  | 0 => failure
  | left + 1 => set left

namespace Document

def shape (document : Document) : Node → Decode.Decoder (Decode.Shape Node)
  | .alias slot => do
    spendReference
    StateT.lift ((document.anchors.lookup slot).bind Node.shape?)
  | node => StateT.lift node.shape?

def format (document : Document) : Decode.Format Node where
  shape := document.shape
  positionalRecords := false

/-- Decode a document. At most a hundred times its weight references are followed, which keeps
documents that refer to themselves over and over from blowing up. -/
def decode? {α : Type} (document : Document)
    (decoder : Decode.Format Node → Decode.Shape Node → Decode.Decoder α) : Option α :=
  let decoded := document.shape document.root >>= decoder document.format
  (decoded.run (100 * document.root.weight)).map (·.1)

end Document
end Gloss.Yaml
