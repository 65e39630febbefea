import Gloss.Dictionary.Inflection

/-! Why a dictionary could not be had. Faults of single variants are no errors: the variant is
dropped and the build goes on. -/
namespace Gloss

inductive RequiredField where
  | term
  | definition
  deriving DecidableEq, Repr

def RequiredField.name : RequiredField → String
  | .term => "term"
  | .definition => "definition"

/-- Why a source gives no dictionary. Positions count the definitions from zero. -/
inductive BuildError where
  | invalidRules (fault : InflectionRules.Fault)
  | missingField (index : Nat) (field : RequiredField)
  | duplicateTerm (index : Nat) (term existing : Text)
  | duplicateId (index : Nat) (id term existing : Text)
  deriving DecidableEq, Repr

namespace BuildError

def index? : BuildError → Option Nat
  | .invalidRules _ => none
  | .missingField index _ => some index
  | .duplicateTerm index _ _ => some index
  | .duplicateId index _ _ _ => some index

def message : BuildError → String
  | .invalidRules fault => "invalid dictionary configuration: " ++ fault.message
  | .missingField index field =>
    "definition #" ++ toString index ++ " is missing required field `" ++ field.name ++ "`"
  | .duplicateTerm _ term existing =>
    "canonical term `" ++ String.ofList term ++ "` collides with `" ++ String.ofList existing
      ++ "` (case-insensitive)"
  | .duplicateId _ id term existing =>
    "identifier `" ++ String.ofList id ++ "` is used by both `" ++ String.ofList existing
      ++ "` and `" ++ String.ofList term ++ "`"

def isValidationError (error : BuildError) : Bool :=
  error.index?.isSome

end BuildError
end Gloss
