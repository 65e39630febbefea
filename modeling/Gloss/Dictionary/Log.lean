import Gloss.Dictionary.Build

/-! What a build logs: one event for every submission that it drops. -/
namespace Gloss

inductive LogLevel where
  | debug
  | warn
  deriving DecidableEq, Repr

structure LogEvent where
  level : LogLevel
  message : String
  fields : List (String × Text)
  /-- The field `refers_to` of the events that have it: the reference as declared, if any. -/
  refersTo : Option (Option Text) := none
  deriving DecidableEq, Repr

def VariantKind.label : VariantKind → Text
  | .alternativeSpelling => "AlternativeSpelling".toList
  | .alternativeTerm => "AlternativeTerm".toList
  | .inflectedForm => "InflectedForm".toList

/-- A generated form that its own term has already is expected, every other drop is a warning. -/
def Drop.logEvent : Drop → LogEvent
  | .missingText kind refersTo =>
    { level := .warn, message := "variant_missing_text"
      fields := [("kind", kind.label)], refersTo := some refersTo }
  | .unresolved kind text refersTo =>
    { level := .warn, message := "variant_reference_unresolved"
      fields := [("text", text), ("kind", kind.label)], refersTo := some refersTo }
  | .blank kind canonical =>
    { level := .warn, message := "variant_blank_dropped"
      fields := [("canonical", canonical), ("kind", kind.label)] }
  | .collision kind text canonical existing existingCanonical =>
    { level := .warn, message := "variant_collision_dropped"
      fields :=
        [("text", text), ("kind", kind.label), ("canonical", canonical), ("existing", existing),
         ("existing_canonical", existingCanonical)] }
  | .alreadyRegistered text canonical =>
    { level := .debug, message := "generated_form_already_registered"
      fields := [("text", text), ("canonical", canonical)] }

def Dictionary.log (dictionary : Dictionary) : List LogEvent :=
  dictionary.drops.map Drop.logEvent

end Gloss
