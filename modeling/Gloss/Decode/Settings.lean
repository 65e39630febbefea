import Gloss.Decode.Record
import Gloss.Engine.Settings

/-! Decoding settings. Every field but the version has a default. -/
namespace Gloss.Decode

variable {Node : Type} (format : Format Node)

def inflectionRules (shape : Shape Node) : Decoder InflectionRules := do
  let found ← record format
    [⟨"enabled", []⟩, ⟨"suffixes", []⟩, ⟨"double_final_consonant", []⟩, ⟨"doubling_max_chars", []⟩]
    shape
  let default : InflectionRules := {}
  return {
    enabled := ← fieldOr format default.enabled found "enabled" flag
    suffixes := ← fieldOr format default.suffixes found "suffixes" (list format text)
    doubleFinalConsonant :=
      ← fieldOr format default.doubleFinalConsonant found "double_final_consonant" flag
    doublingMaxChars :=
      ← fieldOr format default.doublingMaxChars found "doubling_max_chars" natural }

def dictionarySection (shape : Shape Node) : Decoder InflectionRules := do
  let found ← record format [⟨"inflection", []⟩] shape
  fieldOr format {} found "inflection" (inflectionRules format)

def wordChars (shape : Shape Node) : Decoder WordChars := do
  let found ← record format [⟨"extra_word_chars", []⟩] shape
  let default : WordChars := {}
  return { extra := ← fieldOr format default.extra found "extra_word_chars" (list format char) }

def redirectPolicy (shape : Shape Node) : Decoder RedirectPolicy := do
  let found ← record format [⟨"max_short_chars", []⟩, ⟨"min_length_ratio", []⟩] shape
  let default : RedirectPolicy := {}
  return {
    maxShortChars := ← fieldOr format default.maxShortChars found "max_short_chars" natural
    minLengthRatio := ← fieldOr format default.minLengthRatio found "min_length_ratio" real }

def vocabulary (shape : Shape Node) : Decoder Vocabulary := do
  let found ← record format
    [⟨"container_class", []⟩, ⟨"text_class", []⟩, ⟨"body_class", []⟩, ⟨"explanation_class", []⟩,
     ⟨"examples_class", []⟩, ⟨"example_item_class", []⟩, ⟨"variant_note_class", []⟩,
     ⟨"reference_class", []⟩, ⟨"explanation_label", []⟩, ⟨"examples_label", []⟩,
     ⟨"alternative_spelling_note", []⟩, ⟨"alternative_term_note", []⟩, ⟨"reference_tooltip", []⟩,
     ⟨"redirect", []⟩]
    shape
  let default : Vocabulary := {}
  let word := fun name fallback => fieldOr format fallback found name text
  return {
    containerClass := ← word "container_class" default.containerClass
    textClass := ← word "text_class" default.textClass
    bodyClass := ← word "body_class" default.bodyClass
    explanationClass := ← word "explanation_class" default.explanationClass
    examplesClass := ← word "examples_class" default.examplesClass
    exampleItemClass := ← word "example_item_class" default.exampleItemClass
    variantNoteClass := ← word "variant_note_class" default.variantNoteClass
    referenceClass := ← word "reference_class" default.referenceClass
    explanationLabel := ← word "explanation_label" default.explanationLabel
    examplesLabel := ← word "examples_label" default.examplesLabel
    alternativeSpellingNote := ← word "alternative_spelling_note" default.alternativeSpellingNote
    alternativeTermNote := ← word "alternative_term_note" default.alternativeTermNote
    referenceTooltip := ← word "reference_tooltip" default.referenceTooltip
    redirect := ← fieldOr format default.redirect found "redirect" (redirectPolicy format) }

def engineSettings (shape : Shape Node) : Decoder EngineSettings := do
  let found ← record format
    [⟨"version", []⟩, ⟨"name", []⟩, ⟨"dictionary", []⟩, ⟨"index", []⟩, ⟨"markup", []⟩] shape
  return {
    version := ← required format found "version" text
    name := ← fieldOr format none found "name" (optional text)
    inflection := ← fieldOr format {} found "dictionary" (dictionarySection format)
    words := ← fieldOr format {} found "index" (wordChars format)
    markup := ← fieldOr format {} found "markup" (vocabulary format) }

end Gloss.Decode
