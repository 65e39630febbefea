import Gloss.Proofs.Annotator.Replacement
import Gloss.Proofs.Markup.Rendering

/-! Removing the markup of an annotated text gives the text back, whatever markup the text has of
its own. -/
namespace Gloss.Annotator
open Text Markup Markup.Piece
variable {annotator : Annotator}

/-- A match stays as it is, or gets a cross-reference or a definition of a term of the
dictionary. -/
theorem render_cases (annotator : Annotator) (scope : Scope) (found : Match Nat) :
    (annotator.render scope found).html = found.text ∨
      ∃ term ∈ annotator.dictionary.terms,
        (annotator.render scope found).html =
          renderReference annotator.vocabulary found.text term ∨
        ∃ variant, (annotator.render scope found).html =
          renderDefinition annotator.vocabulary found.text term variant := by
  unfold render
  cases hmeaning : annotator.meaning? found with
  | none => exact .inl rfl
  | some meaning =>
    obtain ⟨entry, term⟩ := meaning
    have hterm : term ∈ annotator.dictionary.terms := by
      simp only [meaning?, Option.bind_eq_bind, Option.bind_eq_some_iff, Option.pure_def,
        Option.some.injEq, Prod.mk.injEq] at hmeaning
      obtain ⟨_, -, _, hfind, -, rfl⟩ := hmeaning
      exact List.mem_of_find?_eq_some hfind
    dsimp only
    split
    · exact .inr ⟨term, hterm, .inl rfl⟩
    · split
      · exact .inr ⟨term, hterm, .inr ⟨_, rfl⟩⟩
      · exact .inl rfl

/-- What a match is replaced by is the match, or markup of which the match remains. -/
theorem wraps_render (hv : annotator.vocabulary.Sound)
    (hterms : ∀ term ∈ annotator.dictionary.terms, ProseBalanced term) (scope : Scope)
    {found : Match Nat} (hfound : Untagged found.text) :
    (annotator.render scope found).html = found.text ∨
      Wraps annotator.vocabulary found.text (annotator.render scope found).html := by
  rcases render_cases annotator scope found with h | ⟨term, hterm, h | ⟨variant, h⟩⟩
  · exact .inl h
  · exact .inr (h ▸ wraps_renderReference hv hfound)
  · exact .inr (h ▸ wraps_renderDefinition hv (hterms term hterm) hfound variant)

/-- `pending` is document text in front of the matches, behind the last markup put in. As long as
no markup is put in, a tag of the document may reach over matches. -/
theorem strip_replaceFrom (hv : annotator.vocabulary.Sound)
    (hterms : ∀ term ∈ annotator.dictionary.terms, ProseBalanced term)
    {offset : Nat} {rest : Text} {found : List (Match Nat)} (hlaid : Laid offset rest found)
    (hfound : ∀ m ∈ found, Untagged m.text) {pending : Text}
    (hfree : FreeOf annotator.vocabulary (pending ++ rest)) {stack : List OpenSpan}
    (hstack : ∀ span ∈ stack, span = .kept) (scope : Scope) :
    stripPieces annotator.vocabulary stack 0
        (scan (pending ++ (annotator.replaceFrom scope offset rest found).html)) =
      pending ++ rest := by
  induction found generalizing offset rest pending stack scope with
  | nil =>
    obtain ⟨behind, -, he⟩ := stripPieces_foreign (fun inner => hfree.ofTag) hstack []
    rw [List.append_nil, stripPieces, List.append_nil, flatMap_text_scan] at he
    exact he
  | cons m later ih =>
    obtain ⟨before, behind, rfl, hstart, hstop, hlater⟩ := hlaid
    obtain ⟨hm, hrest⟩ := List.forall_mem_cons.mp hfound
    rw [html_replaceFrom_cons hstart hstop]
    rcases wraps_render hv hterms scope hm with hsame | ⟨⟨markup, hbegins⟩, hwraps⟩
    · -- The match joins the pending text, and a tag may go on over it.
      have hassoc : pending ++ (before ++ m.text ++ behind) =
          pending ++ before ++ m.text ++ behind := by simp
      rw [hassoc] at hfree ⊢
      rw [hsame, ← List.append_assoc, ← List.append_assoc]
      exact ih hlater hrest hfree hstack _
    · -- The markup begins with a bracket, so the pending text is done with.
      have hbefore : FreeOf annotator.vocabulary (pending ++ before) :=
        hfree.of_part ⟨[], m.text ++ behind, by simp⟩
      have hbehind : FreeOf annotator.vocabulary ([] ++ behind) :=
        hfree.of_part ⟨pending ++ before ++ m.text, [], by simp⟩
      rw [← List.append_assoc, hbegins, List.cons_append, scan_append_bracket,
        ← List.cons_append, ← hbegins]
      obtain ⟨left, hleft, he⟩ := stripPieces_foreign (fun inner => hbefore.ofTag) hstack
        (scan ((annotator.render scope m).html ++ (annotator.replaceFrom
          (annotator.render scope m).scope m.stop behind later).html))
      have hlast := ih hlater hrest hbehind hleft (annotator.render scope m).scope
      rw [List.nil_append, List.nil_append] at hlast
      rw [he, hwraps, hlast, flatMap_text_scan]
      simp

theorem strip_html_annotateWithin (hv : annotator.vocabulary.Sound)
    (hterms : ∀ term ∈ annotator.dictionary.terms, ProseBalanced term) {text : Text}
    (hfree : FreeOf annotator.vocabulary text)
    (hfound : ∀ found ∈ annotator.find text, Untagged found.text) (scope : Scope) :
    strip annotator.vocabulary (annotator.annotateWithin scope text).html = text := by
  have hpending : FreeOf annotator.vocabulary ([] ++ text) := hfree
  have hstack : ∀ span ∈ ([] : List OpenSpan), span = .kept := List.forall_mem_nil _
  exact strip_replaceFrom hv hterms (laid_find annotator text) hfound hpending hstack scope

/-- Annotating a text and removing the markup gives the text back, for any dictionary and any
scope. The text has no opening tag with a structural class, no match holds a span tag, and prose
is balanced; apart from that the text may hold any markup, complete or not. -/
theorem strip_annotateWithin {dictionary : Dictionary} {vocabulary : Vocabulary}
    {words : WordChars} (h : Annotator.new dictionary vocabulary words = .ok annotator)
    {text : Text} (hfree : FreeOf vocabulary text)
    (hfound : ∀ found ∈ annotator.find text, Untagged found.text)
    (hprose : ∀ term ∈ dictionary.terms, ProseBalanced term) (scope : Scope) :
    strip vocabulary (annotator.annotateWithin scope text).html = text := by
  unfold Annotator.new at h
  cases hfault : vocabulary.fault? with
  | some fault => simp [hfault] at h
  | none =>
    simp only [hfault, Except.ok.injEq] at h
    subst h
    exact @strip_replaceFrom (ofDictionary dictionary vocabulary words)
      (Vocabulary.sound_of_fault? hfault) hprose 0 text _ (laid_find _ text) hfound [] hfree []
      (by simp) scope

def riskDictionary : Dictionary where
  terms :=
    [{ id := "risico".toList, name := "Risico".toList, key := "risico".toList,
       definition := "kans <span class=\"aiv-definition\">maal</span> < gevolg".toList }]
  variants :=
    [{ text := "ris".toList, canonical := "risico".toList, kind := .alternativeSpelling }]

/-- A text that closes what it never opened, has a match inside a tag of its own, and breaks off in
a tag. -/
def riskText : Text :=
  "</span> <span RISICO> ris < risico <span class=".toList

theorem strip_annotateWithin_risk :
    Annotator.new riskDictionary {} {} = .ok (ofDictionary riskDictionary {} {}) ∧
    ((ofDictionary riskDictionary {} {}).annotateWithin {} riskText).tally = ⟨3, 1, 1⟩ ∧
    FreeOf {} riskText ∧
    (∀ found ∈ (ofDictionary riskDictionary {} {}).find riskText, Untagged found.text) ∧
    (∀ term ∈ riskDictionary.terms, ProseBalanced term) ∧
    strip {} ((ofDictionary riskDictionary {} {}).annotateWithin {} riskText).html =
      riskText := by
  have hnew : Annotator.new riskDictionary {} {} = .ok (ofDictionary riskDictionary {} {}) := rfl
  have hfree : FreeOf {} riskText := by decide +kernel
  have hfound : ∀ found ∈ (ofDictionary riskDictionary {} {}).find riskText,
      Untagged found.text := by decide +kernel
  have hprose : ∀ term ∈ riskDictionary.terms, ProseBalanced term := by
    rw [riskDictionary, List.forall_mem_singleton]
    exact ⟨by decide +kernel, nofun, nofun⟩
  exact ⟨hnew, by decide +kernel, hfree, hfound, hprose,
    strip_annotateWithin hnew hfree hfound hprose {}⟩

end Gloss.Annotator
