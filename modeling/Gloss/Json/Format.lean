import Gloss.Decode.Shape
import Gloss.Json.Value

/-! JSON documents as seen by decoders. -/
namespace Gloss.Json

/-- The shape of a value. An integer is also a real number, never the other way round. -/
def Value.shape : Value → Decode.Shape Value
  | .null => .scalar { absent? := some true }
  | .bool value => .scalar { flag? := some value }
  | .number value => .scalar { natural? := value.natural?, real? := value.float? }
  | .text value => .scalar { text? := value, literal? := value }
  | .array items => .list false items
  | .object members => .record (members.map fun (key, value) => (.text key, value))

/-- JSON has no references, and lets a record be the list of its fields. -/
def format : Decode.Format Value where
  shape value := pure value.shape
  positionalRecords := true

def decode? {α : Type} (decoder : Decode.Shape Value → Decode.Decoder α) (value : Value) :
    Option α :=
  ((decoder value.shape).run 0).map (·.1)

end Gloss.Json
