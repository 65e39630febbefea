import Gloss.Proofs.Annotator.Outcomes
import Gloss.Proofs.Pattern.Casing

/-! Which part of an output is text of the document. The whole document is copied, in order, and
markup and prose are written in between. -/
namespace Gloss
open Text Markup

/-- A part of an output. -/
inductive Segment where
  | copied (chars : Nat)
  | written (text : Text)
  deriving DecidableEq, Repr

namespace Segment

def copiedChars : List Segment → Nat
  | [] => 0
  | .copied chars :: rest => chars + copiedChars rest
  | .written _ :: rest => copiedChars rest

/-- The output that segments give for a document. -/
def fill : Text → List Segment → Text
  | _, [] => []
  | document, .copied chars :: rest => document.take chars ++ fill (document.drop chars) rest
  | document, .written text :: rest => text ++ fill document rest

theorem fill_copied (text behind : Text) (rest : List Segment) :
    fill (text ++ behind) (.copied text.length :: rest) = text ++ fill behind rest := by
  rw [fill, List.take_left, List.drop_left]

end Segment

namespace Outcome
variable (vocabulary : Vocabulary)

def opening : Outcome → Text
  | .literal => []
  | .reference term => openReference vocabulary term
  | .definition _ _ => openSpan vocabulary.containerClass

def closing : Outcome → Text
  | .literal => []
  | .reference _ => closeSpan
  | .definition term kind =>
    span vocabulary.textClass (definitionBlock vocabulary term kind) ++ closeSpan

theorem shown_eq (matched : Text) (outcome : Outcome) : outcome.shown vocabulary matched =
    outcome.opening vocabulary ++ (matched ++ outcome.closing vocabulary) := by
  cases outcome with
  | literal => exact (List.append_nil matched).symm
  | reference term =>
    rw [shown, ← renderReference_eq, renderReference, opening, closing, List.append_assoc]
  | definition term kind =>
    rw [shown, fullDefinition, ← span_eq_styled, span, opening, closing, List.append_assoc,
      List.append_assoc]

end Outcome

namespace Annotator
variable {annotator : Annotator}

/-- The segments of an output from a place of the document on, counted in characters. -/
def layoutFrom (vocabulary : Vocabulary) (document : Text) (place : Nat) :
    List (Match Nat × Outcome) → List Segment
  | [] => [.copied (document.length - place)]
  | (found, outcome) :: later =>
    .copied (charOffset document found.start - place) :: .written (outcome.opening vocabulary)
      :: .copied found.text.length :: .written (outcome.closing vocabulary)
      :: layoutFrom vocabulary document (charOffset document found.stop) later

def layout (annotator : Annotator) (scope : Scope) (document : Text) : List Segment :=
  layoutFrom annotator.vocabulary document 0
    ((annotator.find document).zip (annotator.outcomes scope (annotator.find document)))

section Laying
variable (vocabulary : Vocabulary) (passed : Text)

/-- Up to the end of its first match, a layout copies what is before the match and the match. -/
theorem layoutFrom_cons {before : Text} {m : Match Nat}
    (hstart : m.start = byteLength passed + byteLength before)
    (hstop : m.stop = m.start + byteLength m.text) (behind : Text) (outcome : Outcome)
    (later : List (Match Nat × Outcome)) :
    layoutFrom vocabulary (passed ++ (before ++ m.text ++ behind)) passed.length
        ((m, outcome) :: later) =
      .copied before.length :: .written (outcome.opening vocabulary)
        :: .copied m.text.length :: .written (outcome.closing vocabulary)
        :: layoutFrom vocabulary (passed ++ before ++ m.text ++ behind)
            (passed ++ before ++ m.text).length later := by
  have htext : passed ++ (before ++ m.text ++ behind) =
      passed ++ before ++ m.text ++ behind := by
    simp only [List.append_assoc]
  have hplace : charOffset (passed ++ before ++ m.text ++ behind) m.start - passed.length =
      before.length := by
    rw [hstart, ← byteLength_append, List.append_assoc, charOffset_byteLength,
      List.length_append, Nat.add_sub_cancel_left]
  have hend : charOffset (passed ++ before ++ m.text ++ behind) m.stop =
      (passed ++ before ++ m.text).length := by
    rw [hstop, hstart, ← byteLength_append, ← byteLength_append, charOffset_byteLength]
  rw [layoutFrom, htext, hplace, hend]

private theorem stop_eq {before : Text} {m : Match Nat}
    (hstart : m.start = byteLength passed + byteLength before)
    (hstop : m.stop = m.start + byteLength m.text) :
    m.stop = byteLength (passed ++ before ++ m.text) := by
  rw [hstop, hstart, byteLength_append, byteLength_append]

variable {vocabulary}

theorem replaceFrom_eq_fill {rest : Text} {found : List (Match Nat)}
    (h : Laid (byteLength passed) rest found) (scope : Scope) :
    (annotator.replaceFrom scope (byteLength passed) rest found).html =
      Segment.fill rest (layoutFrom annotator.vocabulary (passed ++ rest) passed.length
        (found.zip (annotator.outcomes scope found))) := by
  induction found generalizing passed rest scope with
  | nil =>
    have hrest := Segment.fill_copied rest [] []
    rw [List.append_nil, Segment.fill, List.append_nil] at hrest
    rw [outcomes, List.mapIdx_nil, List.zip_nil_right, layoutFrom, List.length_append,
      Nat.add_sub_cancel_left, hrest]
    rfl
  | cons m later ih =>
    obtain ⟨before, behind, rfl, hstart, hstop, hlater⟩ := h
    have hend := stop_eq passed hstart hstop
    rw [hend] at hlater
    have hrest := ih _ hlater (annotator.render scope m).scope
    rw [outcomes_cons, List.zip_cons_cons, layoutFrom_cons _ passed hstart hstop,
      html_replaceFrom_cons hstart hstop, hend, hrest, List.append_assoc before,
      Segment.fill_copied, Segment.fill, Segment.fill_copied, Segment.fill, render_eq,
      Outcome.shown_eq, List.append_assoc, List.append_assoc]

theorem copiedChars_layoutFrom {rest : Text} {found : List (Match Nat)}
    (h : Laid (byteLength passed) rest found) {outcomes : List Outcome}
    (hlength : outcomes.length = found.length) :
    Segment.copiedChars (layoutFrom vocabulary (passed ++ rest) passed.length
      (found.zip outcomes)) = rest.length := by
  induction found generalizing passed rest outcomes with
  | nil =>
    rw [List.zip_nil_left, layoutFrom, List.length_append, Nat.add_sub_cancel_left]
    rfl
  | cons m later ih =>
    cases outcomes with
    | nil => cases hlength
    | cons outcome outcomes =>
      obtain ⟨before, behind, rfl, hstart, hstop, hlater⟩ := h
      rw [stop_eq passed hstart hstop] at hlater
      have hrest := ih _ hlater (Nat.succ.inj hlength)
      rw [List.zip_cons_cons, layoutFrom_cons _ passed hstart hstop]
      rw [Segment.copiedChars, Segment.copiedChars, Segment.copiedChars, Segment.copiedChars, hrest,
        List.length_append, List.length_append, Nat.add_assoc]

end Laying

/-- An output is the document, with what its matches bring in written in between. -/
theorem html_eq_fill (scope : Scope) (document : Text) :
    (annotator.annotateWithin scope document).html =
      Segment.fill document (annotator.layout scope document) :=
  replaceFrom_eq_fill [] (laid_find annotator document) scope

theorem copiedChars_layout (scope : Scope) (document : Text) :
    Segment.copiedChars (annotator.layout scope document) = document.length := by
  apply copiedChars_layoutFrom [] (laid_find annotator document)
  rw [outcomes, List.length_mapIdx]

end Annotator
end Gloss
