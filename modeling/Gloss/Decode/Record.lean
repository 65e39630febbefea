import Gloss.Decode.Shape

/-! Decoders for scalars, lists and records. -/
namespace Gloss.Decode

variable {Node α : Type}

def scalar (reading : Scalar → Option α) : Shape Node → Decoder α
  | .scalar readings => StateT.lift (reading readings)
  | _ => failure

def text : Shape Node → Decoder Text :=
  scalar Scalar.text?

def flag : Shape Node → Decoder Bool :=
  scalar Scalar.flag?

def natural : Shape Node → Decoder Nat :=
  scalar Scalar.natural?

def real : Shape Node → Decoder Float :=
  scalar Scalar.real?

def char : Shape Node → Decoder Char :=
  scalar fun readings =>
    match readings.text? with
    | some [c] => some c
    | _ => none

def optional (decode : Shape Node → Decoder α) (shape : Shape Node) : Decoder (Option α) :=
  match shape with
  | .scalar readings =>
    match readings.absent? with
    | none => failure
    | some true => pure none
    | some false => some <$> decode shape
  | _ => some <$> decode shape

variable (format : Format Node)

def node (decode : Shape Node → Decoder α) (item : Node) : Decoder α :=
  format.shape item >>= decode

def list (decode : Shape Node → Decoder α) : Shape Node → Decoder (List α)
  | .list _ items => items.mapM (node format decode)
  | .scalar readings => if readings.isVoid then pure [] else failure
  | .record _ => failure

/-- A field of a record, with the other names it goes by. -/
structure Field where
  name : String
  aliases : List String := []

abbrev Fields (Node : Type) :=
  List (String × Node)

def fieldName? (fields : List Field) (key : Text) : Option String :=
  (fields.find? fun field =>
    field.name.toList == key || field.aliases.any (·.toList == key)).map (·.name)

/-- The known fields among the members of a record. A field must not come twice; unknown keys are
passed over with their values. -/
def namedFields (fields : List Field) (found : Fields Node) :
    List (Node × Node) → Decoder (Fields Node)
  | [] => pure found
  | (key, value) :: rest => do
    match fieldName? fields (← node format text key) with
    | none => namedFields fields found rest
    | some name =>
      if (found.lookup name).isSome then failure
      else namedFields fields ((name, value) :: found) rest

def record (fields : List Field) : Shape Node → Decoder (Fields Node)
  | .record members => namedFields format fields [] members
  | .list _ items =>
    if format.positionalRecords && items.length ≤ fields.length then
      pure ((fields.map (·.name)).zip items)
    else failure
  | .scalar readings => if readings.isVoid then pure [] else failure

def required (found : Fields Node) (name : String) (decode : Shape Node → Decoder α) : Decoder α :=
  match found.lookup name with
  | none => failure
  | some value => node format decode value

def fieldOr (default : α) (found : Fields Node) (name : String)
    (decode : Shape Node → Decoder α) : Decoder α :=
  match found.lookup name with
  | none => pure default
  | some value => node format decode value

end Gloss.Decode
