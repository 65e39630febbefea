import Gloss.Decode.Record
import Gloss.Dictionary.Source

/-! Decoding definitions documents. Every field is optional; what a dictionary needs is seen to
when it is built. -/
namespace Gloss.Decode

variable {Node : Type} (format : Format Node)

/-- Examples: a text, or a list of texts. Here a number or a flag is no text. -/
def examples : Shape Node → Decoder Examples
  | .scalar readings => StateT.lift (readings.literal?.map .prose)
  | .list false items => .items <$> items.mapM (node format (scalar Scalar.literal?))
  | _ => failure

def definition (shape : Shape Node) : Decoder Definition := do
  let found ← record format
    [⟨"id", []⟩, ⟨"term", []⟩, ⟨"definition", []⟩, ⟨"explanation", []⟩, ⟨"examples", []⟩,
     ⟨"category", []⟩, ⟨"inflections", []⟩] shape
  return {
    id := ← fieldOr format none found "id" (optional text)
    term := ← fieldOr format none found "term" (optional text)
    definition := ← fieldOr format none found "definition" (optional text)
    explanation := ← fieldOr format none found "explanation" (optional text)
    examples := ← fieldOr format none found "examples" (optional (examples format))
    category := ← fieldOr format none found "category" (optional text)
    inflections := ← fieldOr format [] found "inflections" (list format text) }

/-- One declared variant. Its text may be called a term. -/
def declaredVariant (shape : Shape Node) : Decoder DeclaredVariant := do
  let found ← record format [⟨"text", ["term"]⟩, ⟨"refers_to", []⟩] shape
  return {
    text := ← fieldOr format none found "text" (optional text)
    refersTo := ← fieldOr format none found "refers_to" (optional text) }

def source (shape : Shape Node) : Decoder Source := do
  let found ← record format
    [⟨"definitions", []⟩, ⟨"alternative_spellings", []⟩, ⟨"alternative_terms", []⟩] shape
  return {
    definitions := ← fieldOr format [] found "definitions" (list format (definition format))
    alternativeSpellings :=
      ← fieldOr format [] found "alternative_spellings" (list format (declaredVariant format))
    alternativeTerms :=
      ← fieldOr format [] found "alternative_terms" (list format (declaredVariant format)) }

end Gloss.Decode
