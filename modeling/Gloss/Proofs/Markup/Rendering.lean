import Gloss.Proofs.Markup.Balance
import Gloss.Proofs.Markup.Vocabulary

/-! Rendered markup as the stripper reads it: the tags of the rendering around the pieces of the
literal and of the prose. Labels and attributes hold no tags, so a definition block is balanced when
the prose in it is, and of a rendered match the literal remains. -/
namespace Gloss.Markup
open Piece Vocabulary

/-- The text is scanned as these pieces, whatever follows. -/
def Reads (t : Text) (l : List Piece) : Prop :=
  ∀ more, scan (t ++ more) = l ++ scan more

namespace Reads
variable {s t : Text} {l m : List Piece}

theorem nil : Reads [] [] :=
  fun _ => rfl

theorem append (hs : Reads s l) (ht : Reads t m) : Reads (s ++ t) (l ++ m) := by
  intro more
  rw [List.append_assoc, hs, ht, List.append_assoc]

theorem scan_eq (h : Reads t l) : scan t = l := by
  simpa [scan_nil] using h []

theorem of_isTag {inner : Text} {piece : Piece} (h : IsTag inner piece) :
    Reads ('<' :: inner ++ ['>']) [piece] := by
  intro more
  rw [List.append_assoc, List.singleton_append, scan_tag h, List.singleton_append]

theorem of_not_mem (h : '<' ∉ t) : Reads t (t.map .char) := by
  intro more
  induction t with
  | nil => rfl
  | cons c t ih =>
    rw [List.mem_cons, not_or] at h
    rw [List.cons_append, scan_cons_of_ne (Ne.symm h.1), ih h.2]
    rfl

theorem before_tag {inner : Text} {piece : Piece} (h : IsTag inner piece) (t : Text) :
    Reads (t ++ ('<' :: inner ++ ['>'])) (scan t ++ [piece]) := by
  intro more
  rw [List.append_assoc, List.cons_append, List.cons_append, scan_append_bracket,
    ← List.cons_append, ← List.cons_append, of_isTag h, List.append_assoc]

end Reads

section Tags

theorem isTag_classTag {name behind : Text} (h : IsClassName name)
    (hb : '<' ∉ behind ∧ '>' ∉ behind) :
    IsTag (classTag name behind) (.openTag (classTag name behind)) := by
  refine ⟨⟨?_, ?_⟩, .inr ⟨rfl, rfl, rfl⟩⟩
  · simp [classTag, h.not_mem (c := '<') (by decide), hb.1]
  · simp [classTag, h.not_mem (c := '>') (by decide), hb.2]

theorem isTag_openSpan {name : Text} (h : IsClassName name) :
    IsTag (classTag name []) (.openTag (classTag name [])) :=
  isTag_classTag h ⟨List.not_mem_nil, List.not_mem_nil⟩

def closingTag : Text :=
  ['/', 's', 'p', 'a', 'n']

theorem isTag_closingTag : IsTag closingTag (.closeTag closingTag) :=
  ⟨by decide, .inl ⟨rfl, rfl⟩⟩

theorem openSpan_eq (name : Text) : openSpan name = '<' :: classTag name [] ++ ['>'] := by
  simp [openSpan, openingStart, classTag]

theorem closeSpan_eq : closeSpan = '<' :: closingTag ++ ['>'] := rfl

def referenceAttributes (vocabulary : Vocabulary) (term : Term) : Text :=
  " title=\"".toList ++ escape vocabulary.referenceTooltip ++ ' ' :: escape term.name
    ++ "\" data-term=\"".toList ++ escape term.name ++ ['"']

theorem openReference_eq (vocabulary : Vocabulary) (term : Term) :
    openReference vocabulary term =
      '<' :: classTag vocabulary.referenceClass (referenceAttributes vocabulary term) ++ ['>'] := by
  have htitle : "\" title=\"".toList = '"' :: " title=\"".toList := by decide
  unfold openReference referenceAttributes classTag openingStart
  rw [htitle]
  simp only [List.append_assoc, List.cons_append, List.nil_append]

theorem not_mem_referenceAttributes (vocabulary : Vocabulary) (term : Term) {c : Char}
    (hc : c = '<' ∨ c = '>') : c ∉ referenceAttributes vocabulary term := by
  have hescape (t : Text) : c ∉ escape t :=
    not_mem_escape (by rcases hc with rfl | rfl <;> decide)
  have htitle : c ∉ " title=\"".toList := by rcases hc with rfl | rfl <;> decide
  have hterm : c ∉ "\" data-term=\"".toList := by rcases hc with rfl | rfl <;> decide
  have hspace : c ≠ ' ' := by rcases hc with rfl | rfl <;> decide
  have hquote : c ≠ '"' := by rcases hc with rfl | rfl <;> decide
  unfold referenceAttributes
  generalize " title=\"".toList = title at htitle ⊢
  generalize "\" data-term=\"".toList = data at hterm ⊢
  simp only [List.mem_append, List.mem_cons, List.not_mem_nil, hescape, htitle, hterm, hspace,
    hquote, or_self, not_false_eq_true]

theorem isTag_reference {vocabulary : Vocabulary} (hv : vocabulary.Sound) (term : Term) :
    IsTag (classTag vocabulary.referenceClass (referenceAttributes vocabulary term))
      (.openTag (classTag vocabulary.referenceClass (referenceAttributes vocabulary term))) :=
  isTag_classTag (hv.isClassName (by simp [classes]))
    ⟨not_mem_referenceAttributes vocabulary term (.inl rfl),
      not_mem_referenceAttributes vocabulary term (.inr rfl)⟩

end Tags

section Inside

theorem Reads.of_stray {t : Text} (h : ∀ more, spanTag? (t ++ more) = none) (ht : '<' ∉ t) :
    Reads ('<' :: t) (('<' :: t).map .char) := by
  intro more
  rw [List.cons_append, scan_stray (h more), Reads.of_not_mem ht more]
  rfl

theorem reads_boldLabel (label : Text) :
    Reads (boldLabel label) ((boldLabel label).map .char) := by
  have hopen : Reads "<strong>".toList ("<strong>".toList.map .char) := by
    have hliteral : "<strong>".toList = '<' :: ['s', 't', 'r', 'o', 'n', 'g', '>'] := by decide
    rw [hliteral]
    exact .of_stray (fun _ => rfl) (by decide)
  have hclose : Reads "</strong>".toList ("</strong>".toList.map .char) := by
    have hliteral : "</strong>".toList = '<' :: ['/', 's', 't', 'r', 'o', 'n', 'g', '>'] := by
      decide
    rw [hliteral]
    exact .of_stray (fun _ => rfl) (by decide)
  have hlabel : Reads (escape label) ((escape label).map .char) :=
    .of_not_mem (not_mem_escape (by decide))
  unfold boldLabel
  generalize "<strong>".toList = opening at hopen ⊢
  generalize "</strong>".toList = closing at hclose ⊢
  rw [List.map_append, List.map_append]
  exact (hopen.append hlabel).append hclose

end Inside

section Pieces
variable {vocabulary : Vocabulary} {name : Text}

def spanPieces (name : Text) (content : List Piece) : List Piece :=
  .openTag (classTag name []) :: (content ++ [.closeTag closingTag])

def notePieces (vocabulary : Vocabulary) (term : Term) (kind : VariantKind) : List Piece :=
  match vocabulary.note? kind with
  | none => []
  | some note =>
    spanPieces vocabulary.variantNoteClass ((escape note ++ ' ' :: escape term.name).map .char)

def examplesPieces (vocabulary : Vocabulary) : Examples → List Piece
  | .prose text => .char ' ' :: scan text
  | .items texts => (texts.filter (!·.isBlank)).flatMap fun text =>
      spanPieces vocabulary.exampleItemClass (scan text)

def blockPieces (vocabulary : Vocabulary) (term : Term) (variant : Option VariantKind) :
    List Piece :=
  variant.elim [] (notePieces vocabulary term)
    ++ spanPieces vocabulary.bodyClass (scan term.definition)
    ++ term.explanation.elim [] (fun explanation =>
        spanPieces vocabulary.explanationClass
          ((boldLabel vocabulary.explanationLabel).map .char ++ .char ' ' :: scan explanation))
    ++ term.examples.elim [] (fun examples =>
        spanPieces vocabulary.examplesClass
          ((boldLabel vocabulary.examplesLabel).map .char ++ examplesPieces vocabulary examples))

/-- The tags of a definition, with the pieces of the literal and of the prose, tags or not, in
their places. -/
def definitionPieces (vocabulary : Vocabulary) (literal : Text) (term : Term)
    (variant : Option VariantKind) : List Piece :=
  spanPieces vocabulary.containerClass
    (scan literal ++ spanPieces vocabulary.textClass (blockPieces vocabulary term variant))

def referencePieces (vocabulary : Vocabulary) (literal : Text) (term : Term) : List Piece :=
  .openTag (classTag vocabulary.referenceClass (referenceAttributes vocabulary term))
    :: (scan literal ++ [.closeTag closingTag])

/-- What is inside a span is scanned by itself, for the tags around it leave it alone. -/
theorem reads_span (h : IsClassName name) (content : Text) :
    Reads (span name content) (spanPieces name (scan content)) := by
  rw [span, openSpan_eq, closeSpan_eq, List.append_assoc]
  exact (Reads.of_isTag (isTag_openSpan h)).append (Reads.before_tag isTag_closingTag content)

theorem reads_flatMap_span (h : IsClassName name) (texts : List Text) :
    Reads (texts.flatMap (span name))
      (texts.flatMap fun text => spanPieces name (scan text)) := by
  induction texts with
  | nil => exact .nil
  | cons text texts ih => exact (reads_span h text).append ih

theorem reads_renderNote (hv : vocabulary.Sound) (term : Term) (kind : VariantKind) :
    Reads (renderNote vocabulary term kind) (notePieces vocabulary term kind) := by
  unfold renderNote notePieces
  cases vocabulary.note? kind with
  | none => exact .nil
  | some note =>
    have hescape (t : Text) : '<' ∉ escape t := not_mem_escape (by decide)
    have hplain : '<' ∉ escape note ++ ' ' :: escape term.name := by simp [hescape]
    dsimp only
    rw [← (Reads.of_not_mem hplain).scan_eq]
    exact reads_span (hv.isClassName (by simp [classes])) _

theorem scan_renderExamples (hv : vocabulary.Sound) (examples : Examples) :
    scan (renderExamples vocabulary examples) = examplesPieces vocabulary examples := by
  cases examples with
  | prose text => exact scan_cons_of_ne (by decide) text
  | items texts => exact (reads_flatMap_span (hv.isClassName (by simp [classes])) _).scan_eq

theorem reads_renderBlock (hv : vocabulary.Sound) (term : Term) (variant : Option VariantKind) :
    Reads (renderBlock vocabulary term variant) (blockPieces vocabulary term variant) := by
  have hnote : Reads (variant.elim [] (renderNote vocabulary term))
      (variant.elim [] (notePieces vocabulary term)) := by
    cases variant with
    | none => exact .nil
    | some kind => exact reads_renderNote hv term kind
  have hbody := reads_span (hv.isClassName (by simp [classes]) :
    IsClassName vocabulary.bodyClass) term.definition
  have hexplanation : Reads
      (term.explanation.elim [] fun explanation => span vocabulary.explanationClass
        (boldLabel vocabulary.explanationLabel ++ ' ' :: explanation))
      (term.explanation.elim [] fun explanation => spanPieces vocabulary.explanationClass
        ((boldLabel vocabulary.explanationLabel).map .char ++ .char ' ' :: scan explanation)) := by
    cases term.explanation with
    | none => exact .nil
    | some explanation =>
      rw [Option.elim_some, Option.elim_some, ← scan_cons_of_ne (by decide), ← reads_boldLabel]
      exact reads_span (hv.isClassName (by simp [classes])) _
  have hexamples : Reads
      (term.examples.elim [] fun examples => span vocabulary.examplesClass
        (boldLabel vocabulary.examplesLabel ++ renderExamples vocabulary examples))
      (term.examples.elim [] fun examples => spanPieces vocabulary.examplesClass
        ((boldLabel vocabulary.examplesLabel).map .char ++
          examplesPieces vocabulary examples)) := by
    cases term.examples with
    | none => exact .nil
    | some examples =>
      rw [Option.elim_some, Option.elim_some, ← scan_renderExamples hv, ← reads_boldLabel]
      exact reads_span (hv.isClassName (by simp [classes])) _
  exact ((hnote.append hbody).append hexplanation).append hexamples

theorem reads_renderDefinition (hv : vocabulary.Sound) (literal : Text) (term : Term)
    (variant : Option VariantKind) : Reads (renderDefinition vocabulary literal term variant)
      (definitionPieces vocabulary literal term variant) := by
  have hinside : scan (literal ++ span vocabulary.textClass (renderBlock vocabulary term variant)) =
      scan literal ++ spanPieces vocabulary.textClass (blockPieces vocabulary term variant) := by
    rw [← (reads_renderBlock hv term variant).scan_eq,
      ← (reads_span (hv.isClassName (by simp [classes])) _).scan_eq]
    exact scan_append_bracket literal _
  rw [renderDefinition, definitionPieces, ← hinside]
  exact reads_span (hv.isClassName (by simp [classes])) _

theorem reads_renderReference (hv : vocabulary.Sound) (literal : Text) (term : Term) :
    Reads (renderReference vocabulary literal term)
      (referencePieces vocabulary literal term) := by
  rw [renderReference, openReference_eq, closeSpan_eq, List.append_assoc]
  exact (Reads.of_isTag (isTag_reference hv term)).append
    (Reads.before_tag isTag_closingTag literal)

end Pieces

section Block
variable {vocabulary : Vocabulary} {term : Term}

def ExamplesBalanced : Examples → Prop
  | .prose text => Balanced text
  | .items texts => ∀ text ∈ texts, text.isBlank = false → Balanced text

/-- A term whose definition, explanation and shown examples are balanced. -/
structure ProseBalanced (term : Term) : Prop where
  definition : Balanced term.definition
  explanation : ∀ explanation ∈ term.explanation, Balanced explanation
  examples : ∀ examples ∈ term.examples, ExamplesBalanced examples

private theorem depth?_zero_append {l m : List Piece} (hl : depth? 0 l = some 0)
    (hm : depth? 0 m = some 0) : depth? 0 (l ++ m) = some 0 := by
  rw [depth?_append, hl]
  exact hm

private theorem depth?_spanPieces {name : Text} {content : List Piece}
    (h : depth? 0 content = some 0) : depth? 0 (spanPieces name content) = some 0 := by
  rw [spanPieces, depth?, depth?_append, depth?_add h 1]
  rfl

private theorem depth?_notePieces (vocabulary : Vocabulary) (term : Term) (kind : VariantKind) :
    depth? 0 (notePieces vocabulary term kind) = some 0 := by
  unfold notePieces
  cases vocabulary.note? kind with
  | none => rfl
  | some note => exact depth?_spanPieces (depth?_chars 0 _)

private theorem depth?_flatMap_spanPieces {name : Text} {texts : List Text}
    (h : ∀ text ∈ texts, Balanced text) :
    depth? 0 (texts.flatMap fun text => spanPieces name (scan text)) = some 0 := by
  induction texts with
  | nil => rfl
  | cons text texts ih =>
    obtain ⟨htext, htexts⟩ := List.forall_mem_cons.mp h
    exact depth?_zero_append (depth?_spanPieces htext.depth?) (ih htexts)

private theorem depth?_examplesPieces {examples : Examples} (h : ExamplesBalanced examples) :
    depth? 0 (examplesPieces vocabulary examples) = some 0 := by
  cases examples with
  | prose text => exact h.depth?
  | items texts =>
    refine depth?_flatMap_spanPieces fun text hmem => ?_
    rw [List.mem_filter, Bool.not_eq_true'] at hmem
    exact h text hmem.1 hmem.2

/-- What stands inside a definition block is balanced when the prose of the term is. -/
theorem depth?_blockPieces (vocabulary : Vocabulary) (ht : ProseBalanced term)
    (variant : Option VariantKind) :
    depth? 0 (blockPieces vocabulary term variant) = some 0 := by
  have hnote : depth? 0 (variant.elim [] (notePieces vocabulary term)) = some 0 := by
    cases variant with
    | none => rfl
    | some kind => exact depth?_notePieces vocabulary term kind
  have hbody : depth? 0 (spanPieces vocabulary.bodyClass (scan term.definition)) = some 0 :=
    depth?_spanPieces ht.definition.depth?
  unfold blockPieces
  refine depth?_zero_append (depth?_zero_append (depth?_zero_append hnote hbody) ?_) ?_
  · cases he : term.explanation with
    | none => rfl
    | some explanation =>
      exact depth?_spanPieces
        (depth?_zero_append (depth?_chars 0 _) (ht.explanation explanation he).depth?)
  · cases he : term.examples with
    | none => rfl
    | some examples =>
      exact depth?_spanPieces
        (depth?_zero_append (depth?_chars 0 _) (depth?_examplesPieces (ht.examples examples he)))

end Block

section Stripping
variable {vocabulary : Vocabulary} {term : Term} {literal : Text}

theorem ofTag_textClass (hv : vocabulary.Sound) (behind : Text) :
    SpanRole.ofTag vocabulary (classTag vocabulary.textClass behind) = .block := by
  rw [SpanRole.ofTag, firstClass?_classTag (hv.isClassName (by simp [classes]))]
  exact if_pos rfl

theorem ofTag_containerClass (hv : vocabulary.Sound) (behind : Text) :
    SpanRole.ofTag vocabulary (classTag vocabulary.containerClass behind) = .wrapper := by
  rw [SpanRole.ofTag, firstClass?_classTag (hv.isClassName (by simp [classes]))]
  simp [hv.container_ne_text]

theorem ofTag_referenceClass (hv : vocabulary.Sound) (behind : Text) :
    SpanRole.ofTag vocabulary (classTag vocabulary.referenceClass behind) = .wrapper := by
  rw [SpanRole.ofTag, firstClass?_classTag (hv.isClassName (by simp [classes]))]
  simp [hv.text_ne_reference.symm]

/-- Markup that begins with a tag and of which the literal remains, wherever it stands. -/
def Wraps (vocabulary : Vocabulary) (literal markup : Text) : Prop :=
  (∃ rest, markup = '<' :: rest) ∧ ∀ (stack : List OpenSpan) (more : Text),
    stripPieces vocabulary stack 0 (scan (markup ++ more)) =
      literal ++ stripPieces vocabulary stack 0 (scan more)

theorem wraps_renderReference (hv : vocabulary.Sound)
    (hliteral : Untagged literal) :
    Wraps vocabulary literal (renderReference vocabulary literal term) := by
  refine ⟨⟨_, rfl⟩, fun stack more => ?_⟩
  rw [reads_renderReference hv, referencePieces, hliteral.scan_eq, List.cons_append,
    stripPieces_wrapper (ofTag_referenceClass hv _), List.append_assoc, stripPieces_chars,
    List.singleton_append, stripPieces_endWrapper]

theorem wraps_renderDefinition (hv : vocabulary.Sound) (ht : ProseBalanced term)
    (hliteral : Untagged literal) (variant : Option VariantKind) :
    Wraps vocabulary literal (renderDefinition vocabulary literal term variant) := by
  refine ⟨⟨_, rfl⟩, fun stack more => ?_⟩
  have hdepth := depth?_blockPieces vocabulary ht variant
  rw [reads_renderDefinition hv, definitionPieces, spanPieces, spanPieces, hliteral.scan_eq]
  simp only [List.append_assoc, List.cons_append, List.nil_append]
  rw [stripPieces_wrapper (ofTag_containerClass hv _), stripPieces_chars,
    stripPieces_block (ofTag_textClass hv _), stripPieces_skipping hdepth, stripPieces_endBlock,
    stripPieces_endWrapper]

end Stripping

end Gloss.Markup
