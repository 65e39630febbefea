import Gloss.Proofs.Annotator.Matches
import Gloss.Proofs.Pattern.Separator

/-! Replacing matches that lie in a text one behind the other: text between them is copied, parts
of a text are done one after the other, and where a part stands does not matter. -/
namespace Gloss

theorem Laid.shift {P : Type} {offset : Nat} {text : Text} {l : List (Match P)}
    (h : Laid offset text l) (bytes : Nat) :
    Laid (offset + bytes) text (l.map (·.shift bytes)) := by
  induction l generalizing offset text with
  | nil => trivial
  | cons found later ih =>
    obtain ⟨before, behind, rfl, hstart, hstop, hlater⟩ := h
    refine ⟨before, behind, rfl, ?_, ?_, ih hlater⟩
    · simp only [Match.shift]
      omega
    · simp only [Match.shift]
      omega

namespace Annotator
open Text
variable {annotator : Annotator} {offset : Nat} {found later : List (Match Nat)}

theorem append_assoc (first second third : Annotated) :
    append (append first second) third = append first (append second third) := by
  simp only [append, List.append_assoc, Nat.add_assoc]

/-- A laid match is cut out at its offsets, and what is put in its place stands between what is
before and what is behind it. -/
theorem replaceFrom_cons {before behind : Text} {m : Match Nat}
    (hstart : m.start = offset + byteLength before)
    (hstop : m.stop = m.start + byteLength m.text) (scope : Scope) :
    annotator.replaceFrom scope offset (before ++ m.text ++ behind) (m :: later) =
      append ⟨before, scope, {}⟩ (append (annotator.render scope m)
        (annotator.replaceFrom (annotator.render scope m).scope m.stop behind later)) := by
  rw [replaceFrom, hstart, Nat.add_sub_cancel_left, List.append_assoc, splitAtByte_byteLength]
  dsimp only
  rw [← hstart, hstop, Nat.add_sub_cancel_left, splitAtByte_byteLength]

theorem html_replaceFrom_cons {scope : Scope} {before behind : Text} {m : Match Nat}
    (hstart : m.start = offset + byteLength before)
    (hstop : m.stop = m.start + byteLength m.text) :
    (annotator.replaceFrom scope offset (before ++ m.text ++ behind) (m :: later)).html =
      before ++ ((annotator.render scope m).html ++
        (annotator.replaceFrom (annotator.render scope m).scope m.stop behind later).html) := by
  rw [replaceFrom_cons hstart hstop]
  rfl

theorem replaceFrom_copy {before rest : Text}
    (h : Laid (offset + byteLength before) rest found) (scope : Scope) :
    annotator.replaceFrom scope offset (before ++ rest) found =
      append ⟨before, scope, {}⟩
        (annotator.replaceFrom scope (offset + byteLength before) rest found) := by
  cases found with
  | nil => rfl
  | cons m later =>
    obtain ⟨between, behind, rfl, hstart, hstop, -⟩ := h
    have hstart' : m.start = offset + byteLength (before ++ between) := by
      rw [hstart, byteLength_append, Nat.add_assoc]
    have hassoc : before ++ (between ++ m.text ++ behind) =
        before ++ between ++ m.text ++ behind := by simp
    rw [hassoc, replaceFrom_cons hstart' hstop, replaceFrom_cons hstart hstop]
    simp only [append, List.append_assoc, Nat.zero_add]

/-- Two parts of a text are done one after the other. -/
theorem replaceFrom_append {text rest : Text} (h : Laid offset text found)
    (hlater : Laid (offset + byteLength text) rest later) (scope : Scope) :
    annotator.replaceFrom scope offset (text ++ rest) (found ++ later) =
      append (annotator.replaceFrom scope offset text found)
        (annotator.replaceFrom (annotator.replaceFrom scope offset text found).scope
          (offset + byteLength text) rest later) := by
  induction found generalizing offset text scope with
  | nil => exact replaceFrom_copy hlater scope
  | cons m found ih =>
    obtain ⟨before, behind, rfl, hstart, hstop, hbehind⟩ := h
    have hend : offset + byteLength (before ++ m.text ++ behind) = m.stop + byteLength behind := by
      rw [hstop, hstart, byteLength_append, byteLength_append]
      omega
    rw [hend] at hlater ⊢
    have hrest := ih hbehind hlater (annotator.render scope m).scope
    rw [List.append_assoc, List.cons_append, replaceFrom_cons hstart hstop,
      replaceFrom_cons hstart hstop, hrest, append_assoc, append_assoc]
    rfl

/-- Only the distance of the matches from the beginning of the text counts. -/
theorem replaceFrom_shift (scope : Scope) (offset bytes : Nat) (text : Text)
    (found : List (Match Nat)) :
    annotator.replaceFrom scope (offset + bytes) text (found.map (·.shift bytes)) =
      annotator.replaceFrom scope offset text found := by
  induction found generalizing offset text scope with
  | nil => rfl
  | cons m found ih =>
    have hbefore : (m.shift bytes).start - (offset + bytes) = m.start - offset :=
      Nat.add_sub_add_right _ _ _
    have hlength : (m.shift bytes).stop - (m.shift bytes).start = m.stop - m.start :=
      Nat.add_sub_add_right _ _ _
    have hrender : annotator.render scope (m.shift bytes) = annotator.render scope m := rfl
    rw [List.map_cons, replaceFrom, replaceFrom, hbefore, hlength, hrender]
    dsimp only
    rw [← ih]
    rfl

/-- What holds of all parts of a text and of all replacements, and is kept when texts are put
together, holds of the output. -/
theorem html_replaceFrom_closed {P : Text → Prop} (happend : ∀ s t, P s → P t → P (s ++ t))
    {text : Text} (h : Laid offset text found) (hparts : ∀ part, part <:+: text → P part)
    (hrender : ∀ m ∈ found, ∀ scope, P (annotator.render scope m).html) (scope : Scope) :
    P (annotator.replaceFrom scope offset text found).html := by
  induction found generalizing offset text scope with
  | nil => exact hparts text (List.infix_refl text)
  | cons m later ih =>
    obtain ⟨before, behind, rfl, hstart, hstop, hlater⟩ := h
    obtain ⟨hm, hrest⟩ := List.forall_mem_cons.mp hrender
    have hbefore : P before := hparts before ⟨[], m.text ++ behind, by simp⟩
    have hbehind (part : Text) (hpart : part <:+: behind) : P part :=
      hparts part (hpart.trans (List.suffix_append _ _).isInfix)
    rw [html_replaceFrom_cons hstart hstop]
    apply happend before _ hbefore
    exact happend _ _ (hm scope) (ih hlater hbehind hrest _)

section Alike
variable {annotator annotator' : Annotator}

theorem render_congr {m m' : Match Nat} (hvocabulary : annotator.vocabulary = annotator'.vocabulary)
    (hmeaning : annotator.meaning? m = annotator'.meaning? m') (htext : m.text = m'.text)
    (scope : Scope) : annotator.render scope m = annotator'.render scope m' := by
  unfold render isRedirected
  rw [hmeaning, hvocabulary, htext]

/-- Matches with the same places that are rendered alike are replaced alike. -/
theorem replaceFrom_congr {found found' : List (Match Nat)}
    (h : List.Forall₂ (fun m m' => m.start = m'.start ∧ m.stop = m'.stop ∧
      ∀ scope, annotator.render scope m = annotator'.render scope m') found found')
    (scope : Scope) (offset : Nat) (rest : Text) :
    annotator.replaceFrom scope offset rest found =
      annotator'.replaceFrom scope offset rest found' := by
  induction h generalizing scope offset rest with
  | nil => rfl
  | @cons m m' _ _ hm _ ih =>
    obtain ⟨hstart, hstop, hrender⟩ := hm
    rw [replaceFrom, replaceFrom, hrender, hstart, hstop]
    dsimp only
    rw [ih]

end Alike

end Annotator
end Gloss
