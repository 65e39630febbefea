import Gloss.Markup.Render

/-! The two renderings of a match, spelled out as elements: a cross-reference is one span with a
tooltip, a full definition a span around the match and a block of spans, one for each part. -/
namespace Gloss.Markup
open Text

def element (tag : Text) (attributes : List (Text × Text)) (content : Text) : Text :=
  ('<' :: tag
      ++ attributes.flatMap (fun (name, value) => ' ' :: name ++ ['=', '"'] ++ value ++ ['"'])
      ++ ['>'])
    ++ content ++ ('<' :: '/' :: tag ++ ['>'])

def styled (name content : Text) : Text :=
  element "span".toList [("class".toList, name)] content

/-- A cross-reference names its term twice, in the tooltip and for scripts. -/
def crossReference (vocabulary : Vocabulary) (term : Term) (matched : Text) : Text :=
  element "span".toList
    [("class".toList, vocabulary.referenceClass),
     ("title".toList, escape vocabulary.referenceTooltip ++ ' ' :: escape term.name),
     ("data-term".toList, escape term.name)] matched

/-- Only declared spellings and declared terms have a note. -/
def variantNote (vocabulary : Vocabulary) (term : Term) : EntryKind → Text
  | .canonical | .variant .inflectedForm => []
  | .variant .alternativeSpelling =>
    styled vocabulary.variantNoteClass
      (escape vocabulary.alternativeSpellingNote ++ ' ' :: escape term.name)
  | .variant .alternativeTerm =>
    styled vocabulary.variantNoteClass
      (escape vocabulary.alternativeTermNote ++ ' ' :: escape term.name)

def labelled (label content : Text) : Text :=
  element "strong".toList [] (escape label) ++ content

/-- Items of white space alone are left out. -/
def exampleElements (vocabulary : Vocabulary) : Examples → Text
  | .prose text => ' ' :: text
  | .items texts =>
    (texts.filter (·.any (!isWhite ·))).flatMap (styled vocabulary.exampleItemClass)

def definitionBlock (vocabulary : Vocabulary) (term : Term) (kind : EntryKind) : Text :=
  variantNote vocabulary term kind
    ++ styled vocabulary.bodyClass term.definition
    ++ term.explanation.elim [] (fun explanation =>
        styled vocabulary.explanationClass
          (labelled vocabulary.explanationLabel (' ' :: explanation)))
    ++ term.examples.elim [] (fun examples =>
        styled vocabulary.examplesClass
          (labelled vocabulary.examplesLabel (exampleElements vocabulary examples)))

def fullDefinition (vocabulary : Vocabulary) (term : Term) (kind : EntryKind) (matched : Text) :
    Text :=
  styled vocabulary.containerClass
    (matched ++ styled vocabulary.textClass (definitionBlock vocabulary term kind))

section Renderings
variable (vocabulary : Vocabulary) (term : Term)

private theorem span_toList : "span".toList = ['s', 'p', 'a', 'n'] := by decide

private theorem class_toList : "class".toList = ['c', 'l', 'a', 's', 's'] := by decide

theorem span_eq_styled : span = styled := by
  funext name content
  simp [span, openSpan, openingStart, closeSpan, styled, element, span_toList, class_toList]

theorem boldLabel_append (label content : Text) :
    boldLabel label ++ content = labelled label content := by
  have hopen : "<strong>".toList = '<' :: "strong".toList ++ [] ++ ['>'] := rfl
  have hclose : "</strong>".toList = '<' :: '/' :: "strong".toList ++ ['>'] := rfl
  unfold boldLabel labelled element
  rw [hopen, hclose, List.flatMap_nil]

theorem renderReference_eq (matched : Text) :
    renderReference vocabulary matched term = crossReference vocabulary term matched := by
  have htitle : "\" title=\"".toList = '"' :: ' ' :: "title".toList ++ ['=', '"'] := rfl
  have hterm : "\" data-term=\"".toList = '"' :: ' ' :: "data-term".toList ++ ['=', '"'] := rfl
  rw [renderReference, openReference, crossReference, element, htitle, hterm]
  generalize "title".toList = title
  generalize "data-term".toList = data
  simp [openingStart, closeSpan, span_toList, class_toList]

theorem renderNote_eq (kind : EntryKind) :
    kind.variantKind?.elim [] (renderNote vocabulary term) = variantNote vocabulary term kind := by
  cases kind with
  | canonical => rfl
  | variant kind =>
    cases kind with
    | inflectedForm => rfl
    | alternativeSpelling => exact congrFun (congrFun span_eq_styled _) _
    | alternativeTerm => exact congrFun (congrFun span_eq_styled _) _

theorem renderExamples_eq (examples : Examples) :
    renderExamples vocabulary examples = exampleElements vocabulary examples := by
  cases examples with
  | prose text => rfl
  | items texts =>
    have hblank (text : Text) : (!text.isBlank) = text.any (!isWhite ·) := by
      rw [isBlank, List.not_all_eq_any_not]
    simp only [renderExamples, exampleElements, hblank, span_eq_styled]

theorem renderBlock_eq (kind : EntryKind) :
    renderBlock vocabulary term kind.variantKind? = definitionBlock vocabulary term kind := by
  simp only [renderBlock, definitionBlock, renderNote_eq, span_eq_styled, boldLabel_append,
    renderExamples_eq]

theorem renderDefinition_eq (matched : Text) (kind : EntryKind) :
    renderDefinition vocabulary matched term kind.variantKind? =
      fullDefinition vocabulary term kind matched := by
  rw [renderDefinition, fullDefinition, renderBlock_eq, span_eq_styled]

end Renderings

end Gloss.Markup
