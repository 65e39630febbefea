import Gloss.Markup.Escape
import Gloss.Markup.Vocabulary

/-! The two renderings of a match. Elements follow each other without white space. Labels and
attribute values are escaped; prose goes in verbatim, for authors may put markup in it. -/
namespace Gloss.Markup

def openingStart : Text :=
  ['<', 's', 'p', 'a', 'n', ' ', 'c', 'l', 'a', 's', 's', '=', '"']

def openSpan (name : Text) : Text :=
  openingStart ++ name ++ ['"', '>']

def closeSpan : Text :=
  ['<', '/', 's', 'p', 'a', 'n', '>']

def span (name content : Text) : Text :=
  openSpan name ++ content ++ closeSpan

def boldLabel (label : Text) : Text :=
  "<strong>".toList ++ escape label ++ "</strong>".toList

def renderNote (vocabulary : Vocabulary) (term : Term) (kind : VariantKind) : Text :=
  match vocabulary.note? kind with
  | none => []
  | some note => span vocabulary.variantNoteClass (escape note ++ ' ' :: escape term.name)

/-- The items of a list of examples, blank ones left out; prose stands behind a space. -/
def renderExamples (vocabulary : Vocabulary) : Examples → Text
  | .prose text => ' ' :: text
  | .items texts =>
    (texts.filter (!·.isBlank)).flatMap (span vocabulary.exampleItemClass)

/-- What stands inside the definition block: note, definition, explanation and examples. -/
def renderBlock (vocabulary : Vocabulary) (term : Term) (variant : Option VariantKind) : Text :=
  variant.elim [] (renderNote vocabulary term)
    ++ span vocabulary.bodyClass term.definition
    ++ term.explanation.elim [] (fun explanation =>
        span vocabulary.explanationClass
          (boldLabel vocabulary.explanationLabel ++ ' ' :: explanation))
    ++ term.examples.elim [] (fun examples =>
        span vocabulary.examplesClass
          (boldLabel vocabulary.examplesLabel ++ renderExamples vocabulary examples))

def renderDefinition (vocabulary : Vocabulary) (literal : Text) (term : Term)
    (variant : Option VariantKind) : Text :=
  span vocabulary.containerClass
    (literal ++ span vocabulary.textClass (renderBlock vocabulary term variant))

def openReference (vocabulary : Vocabulary) (term : Term) : Text :=
  openingStart ++ vocabulary.referenceClass
    ++ "\" title=\"".toList ++ escape vocabulary.referenceTooltip ++ ' ' :: escape term.name
    ++ "\" data-term=\"".toList ++ escape term.name ++ ['"', '>']

def renderReference (vocabulary : Vocabulary) (literal : Text) (term : Term) : Text :=
  openReference vocabulary term ++ literal ++ closeSpan

end Gloss.Markup
