import Mathlib.Tactic.MkIffOfInductiveProp
import Gloss.Proofs.Markup.Vocabulary
import Gloss.Proofs.Text.Lines

/-! Line feeds in rendered markup. Tags bring in none, so there are none as long as the words of the
vocabulary and the prose of the term have none. -/
namespace Gloss
open Text

/-- No visible word of the vocabulary holds a line feed. -/
@[mk_iff]
structure Vocabulary.Unbroken (vocabulary : Vocabulary) : Prop where
  explanationLabel : '\n' ∉ vocabulary.explanationLabel
  examplesLabel : '\n' ∉ vocabulary.examplesLabel
  alternativeSpellingNote : '\n' ∉ vocabulary.alternativeSpellingNote
  alternativeTermNote : '\n' ∉ vocabulary.alternativeTermNote
  referenceTooltip : '\n' ∉ vocabulary.referenceTooltip

instance (vocabulary : Vocabulary) : Decidable vocabulary.Unbroken :=
  decidable_of_iff _ (Vocabulary.unbroken_iff vocabulary).symm

def Examples.Unbroken : Examples → Prop
  | .prose text => '\n' ∉ text
  | .items texts => ∀ text ∈ texts, text.isBlank = false → '\n' ∉ text

/-- Neither the name of the term nor its prose holds a line feed. -/
structure Term.Unbroken (term : Term) : Prop where
  name : '\n' ∉ term.name
  definition : '\n' ∉ term.definition
  explanation : ∀ explanation ∈ term.explanation, '\n' ∉ explanation
  examples : ∀ examples ∈ term.examples, examples.Unbroken

namespace Markup
variable {vocabulary : Vocabulary} {term : Term} {literal : Text}

theorem lineFeed_not_mem_escape {t : Text} (h : '\n' ∉ t) : '\n' ∉ escape t := by
  intro hmem
  obtain ⟨c, hc, hmem⟩ := List.mem_flatMap.mp hmem
  have hne : c ≠ '\n' := fun he => h (he ▸ hc)
  unfold escapeChar at hmem
  split at hmem <;> simp_all [eq_comm]

theorem lineFeed_not_mem_name {name : Text} (h : Vocabulary.IsClassName name) : '\n' ∉ name := by
  intro hmem
  have hwhite := (h.2 _ hmem).1
  revert hwhite
  decide

theorem lineFeed_not_mem_span {name content : Text} (hname : Vocabulary.IsClassName name)
    (hcontent : '\n' ∉ content) : '\n' ∉ span name content := by
  have hstart : '\n' ∉ openingStart := by decide
  have hend : '\n' ∉ closeSpan := by decide
  have hquote : '\n' ∉ ['"', '>'] := by decide
  have hopen : '\n' ∉ openSpan name :=
    List.not_mem_append (List.not_mem_append hstart (lineFeed_not_mem_name hname)) hquote
  exact List.not_mem_append (List.not_mem_append hopen hcontent) hend

theorem lineFeed_not_mem_boldLabel {label : Text} (h : '\n' ∉ label) : '\n' ∉ boldLabel label := by
  have hstart : '\n' ∉ "<strong>".toList := by decide
  have hend : '\n' ∉ "</strong>".toList := by decide
  exact List.not_mem_append (List.not_mem_append hstart (lineFeed_not_mem_escape h)) hend

theorem lineFeed_not_mem_spaced {s t : Text} (hs : '\n' ∉ s) (ht : '\n' ∉ t) :
    '\n' ∉ s ++ ' ' :: t :=
  List.not_mem_append hs (List.not_mem_cons_of_ne_of_not_mem (by decide) ht)

/-- Markup that ends in a tag ends in a bracket, so it keeps a line. -/
private theorem isLine_of_closeSpan {markup : Text} (h : '\n' ∉ markup ++ closeSpan) :
    IsLine (markup ++ closeSpan) where
  noFeed := h
  noReturn := by
    have hend : closeSpan.getLast? = some '>' := rfl
    rw [List.getLast?_append, hend, Option.some_or]
    decide

section Rendered
variable (hv : vocabulary.Sound) (hw : vocabulary.Unbroken) (ht : term.Unbroken)
include hv hw ht

private theorem lineFeed_not_mem_renderNote (kind : VariantKind) :
    '\n' ∉ renderNote vocabulary term kind := by
  have hname := lineFeed_not_mem_escape ht.name
  have hclass : Vocabulary.IsClassName vocabulary.variantNoteClass :=
    hv.isClassName (by simp [Vocabulary.classes])
  unfold renderNote
  cases kind with
  | alternativeSpelling =>
    apply lineFeed_not_mem_span hclass
    exact lineFeed_not_mem_spaced (lineFeed_not_mem_escape hw.alternativeSpellingNote) hname
  | alternativeTerm =>
    apply lineFeed_not_mem_span hclass
    exact lineFeed_not_mem_spaced (lineFeed_not_mem_escape hw.alternativeTermNote) hname
  | inflectedForm => exact List.not_mem_nil

omit hw ht in
private theorem lineFeed_not_mem_renderExamples {examples : Examples} (h : examples.Unbroken) :
    '\n' ∉ renderExamples vocabulary examples := by
  cases examples with
  | prose text => exact lineFeed_not_mem_spaced List.not_mem_nil h
  | items texts =>
    intro hmem
    obtain ⟨text, htext, hmem⟩ := List.mem_flatMap.mp hmem
    rw [List.mem_filter, Bool.not_eq_true'] at htext
    have hclass : Vocabulary.IsClassName vocabulary.exampleItemClass :=
      hv.isClassName (by simp [Vocabulary.classes])
    exact lineFeed_not_mem_span hclass (h text htext.1 htext.2) hmem

private theorem lineFeed_not_mem_renderBlock (variant : Option VariantKind) :
    '\n' ∉ renderBlock vocabulary term variant := by
  have hnote : '\n' ∉ variant.elim [] (renderNote vocabulary term) := by
    cases variant with
    | none => exact List.not_mem_nil
    | some kind => exact lineFeed_not_mem_renderNote hv hw ht kind
  have hbody : '\n' ∉ span vocabulary.bodyClass term.definition :=
    lineFeed_not_mem_span (hv.isClassName (by simp [Vocabulary.classes])) ht.definition
  have hexplanation : '\n' ∉ term.explanation.elim [] fun explanation =>
      span vocabulary.explanationClass
        (boldLabel vocabulary.explanationLabel ++ ' ' :: explanation) := by
    cases he : term.explanation with
    | none => exact List.not_mem_nil
    | some explanation =>
      apply lineFeed_not_mem_span (hv.isClassName (by simp [Vocabulary.classes]))
      exact lineFeed_not_mem_spaced (lineFeed_not_mem_boldLabel hw.explanationLabel)
        (ht.explanation explanation he)
  have hexamples : '\n' ∉ term.examples.elim [] fun examples =>
      span vocabulary.examplesClass
        (boldLabel vocabulary.examplesLabel ++ renderExamples vocabulary examples) := by
    cases he : term.examples with
    | none => exact List.not_mem_nil
    | some examples =>
      apply lineFeed_not_mem_span (hv.isClassName (by simp [Vocabulary.classes]))
      exact List.not_mem_append (lineFeed_not_mem_boldLabel hw.examplesLabel)
        (lineFeed_not_mem_renderExamples hv (ht.examples examples he))
  unfold renderBlock
  exact List.not_mem_append (List.not_mem_append
    (List.not_mem_append hnote hbody) hexplanation) hexamples

theorem isLine_renderDefinition (hliteral : '\n' ∉ literal) (variant : Option VariantKind) :
    IsLine (renderDefinition vocabulary literal term variant) := by
  have htext : '\n' ∉ span vocabulary.textClass (renderBlock vocabulary term variant) := by
    apply lineFeed_not_mem_span (hv.isClassName (by simp [Vocabulary.classes]))
    exact lineFeed_not_mem_renderBlock hv hw ht variant
  have hcontainer : '\n' ∉ renderDefinition vocabulary literal term variant := by
    apply lineFeed_not_mem_span (hv.isClassName (by simp [Vocabulary.classes]))
    exact List.not_mem_append hliteral htext
  exact isLine_of_closeSpan hcontainer

private theorem lineFeed_not_mem_openReference : '\n' ∉ openReference vocabulary term := by
  have hname := lineFeed_not_mem_escape ht.name
  have htooltip := lineFeed_not_mem_escape hw.referenceTooltip
  have hclass : Vocabulary.IsClassName vocabulary.referenceClass :=
    hv.isClassName (by simp [Vocabulary.classes])
  have hstart : '\n' ∉ openingStart := by decide
  have htitle : '\n' ∉ "\" title=\"".toList := by decide
  have hterm : '\n' ∉ "\" data-term=\"".toList := by decide
  have hquote : '\n' ∉ ['"', '>'] := by decide
  have hopen := List.not_mem_append hstart (lineFeed_not_mem_name hclass)
  have htip := lineFeed_not_mem_spaced
    (List.not_mem_append (List.not_mem_append hopen htitle) htooltip) hname
  exact List.not_mem_append
    (List.not_mem_append (List.not_mem_append htip hterm) hname) hquote

theorem isLine_renderReference (hliteral : '\n' ∉ literal) :
    IsLine (renderReference vocabulary literal term) := by
  have hopen : '\n' ∉ openReference vocabulary term := lineFeed_not_mem_openReference hv hw ht
  apply isLine_of_closeSpan
  exact List.not_mem_append (List.not_mem_append hopen hliteral) (by decide)

end Rendered
end Markup
end Gloss
