import Gloss.Proofs.Annotator.RoundTrip
import Gloss.Proofs.Annotator.SharedScope
import Gloss.Proofs.Command.Input
import Gloss.Proofs.Markup.LineBreaks

/-! Annotating the lines of an input and removing the markup from the output. Each line becomes one
line as long as no line feed comes from the dictionary or the settings. -/
namespace Gloss.Command
open Text Markup

section Loading
variable {files : Text → Option ByteArray} {definitions : Text} {settings : Option Text}
  {glossary : Glossary} {arguments : List Text}

def reading (files : Text → Option ByteArray) (path : Text) : Id (Option ByteArray) :=
  pure (files path)

def Loads (files : Text → Option ByteArray) (definitions : Text) (settings : Option Text)
    (glossary : Glossary) : Prop :=
  Id.run (loadGlossary (reading files) definitions settings).run = .ok glossary

private theorem run_bind {α β : Type} (x : ExceptT LoadError Id α) (f : α → ExceptT LoadError Id β) :
    Id.run (x >>= f).run = (Id.run x.run).bind fun a => Id.run (f a).run := by
  change Id.run (ExceptT.bindCont f (Id.run x.run)) = _
  cases Id.run x.run <;> rfl

private theorem run_of_prepare {invocation : Invocation} {work : Work}
    (harguments : Invocation.ofArguments? arguments = some invocation)
    (hprepare : Id.run (prepare (reading files) invocation).run = .ok work) (input : List UInt8) :
    run files input arguments = work.run input := by
  unfold run
  rw [harguments]
  dsimp only
  split
  · next hfault => cases hfault.symm.trans hprepare
  · next hwork =>
    cases hwork.symm.trans hprepare
    rfl

theorem run_annotate {shared : Bool} (harguments : Invocation.ofArguments? arguments =
      some (.annotate definitions settings shared []))
    (hload : Loads files definitions settings glossary) (input : List UInt8) :
    run files input arguments =
      (Work.answer (.annotate glossary (if shared then some {} else none)) []).run input := by
  apply run_of_prepare harguments
  rw [prepare, run_bind, hload]
  rfl

theorem run_strip (harguments : Invocation.ofArguments? arguments = some (.strip settings []))
    {loaded : EngineSettings} (hload : Id.run (loadSettings (reading files) settings).run = .ok loaded)
    (input : List UInt8) :
    run files input arguments = (Work.answer (.strip loaded.markup) []).run input := by
  apply run_of_prepare harguments
  rw [prepare, run_bind, hload]
  rfl

private theorem eq_ok_of_mapError {ε ε' α : Type} {x : Except ε α} {f : ε → ε'} {a : α}
    (h : x.mapError f = .ok a) : x = .ok a := by
  cases x with
  | error fault => cases h
  | ok b =>
    cases h
    rfl

private theorem vocabulary_of_load {source : Source} {loaded : EngineSettings}
    (h : Glossary.load source loaded = .ok glossary) :
    glossary.annotator.vocabulary = loaded.markup ∧ loaded.markup.Sound := by
  unfold Glossary.load at h
  cases hbuild : (Dictionary.build source loaded.inflection).mapError GlossaryError.dictionary with
  | error fault => simp [hbuild, bind, Except.bind] at h
  | ok dictionary =>
    cases hnew : (Annotator.new dictionary loaded.markup loaded.words).mapError
        GlossaryError.markup with
    | error fault => simp [hbuild, hnew, bind, Except.bind] at h
    | ok annotator =>
      simp only [hbuild, hnew, bind, Except.bind, pure, Except.pure, Except.ok.injEq] at h
      obtain ⟨hfault, hannotator⟩ := Annotator.new_eq_ok_iff.mp (eq_ok_of_mapError hnew)
      rw [← h, hannotator]
      exact ⟨rfl, Vocabulary.sound_of_fault? hfault⟩

/-- A glossary is loaded with the vocabulary of its settings, which is sound. -/
theorem exists_settings_of_loads (h : Loads files definitions settings glossary) :
    ∃ loaded, Id.run (loadSettings (reading files) settings).run = .ok loaded ∧
      glossary.annotator.vocabulary = loaded.markup ∧ loaded.markup.Sound := by
  unfold Loads loadGlossary at h
  rw [run_bind] at h
  cases hsettings : Id.run (loadSettings (reading files) settings).run with
  | error fault =>
    rw [hsettings] at h
    cases h
  | ok loaded =>
    rw [hsettings] at h
    refine ⟨loaded, rfl, ?_⟩
    have hfile : Glossary.ofFile definitions (files definitions) loaded = .ok glossary :=
      eq_ok_of_mapError h
    unfold Glossary.ofFile at hfile
    cases hsource : (Source.ofFile definitions (files definitions)).mapError
        GlossaryError.source with
    | error fault => simp [hsource, bind, Except.bind] at hfile
    | ok source =>
      simp only [hsource, bind, Except.bind] at hfile
      exact vocabulary_of_load hfile

end Loading

section Answers

def annotations (glossary : Glossary) (shared : Bool) (lines : List Text) : List Text :=
  if shared then (glossary.annotator.annotateEach {} lines).map Annotated.html
  else lines.map glossary.annotator.annotate

theorem answerFields_strip (vocabulary : Vocabulary) (fields : List Text) :
    (Task.strip vocabulary).answerFields fields = unlines (fields.map (strip vocabulary)) := by
  induction fields with
  | nil => rfl
  | cons field later ih =>
    rw [Task.answerFields, List.map_cons, unlines_cons, ← ih]
    rfl

theorem answerFields_shared (glossary : Glossary) (scope : Scope) (fields : List Text) :
    (Task.annotate glossary (some scope)).answerFields fields =
      unlines ((glossary.annotator.annotateEach scope fields).map Annotated.html) := by
  induction fields generalizing scope with
  | nil => rfl
  | cons field later ih =>
    rw [Task.answerFields, Annotator.annotateEach, Annotator.passes, List.map_cons, List.map_cons,
      unlines_cons, ← Annotator.annotateEach, ← ih]
    rfl

theorem answerFields_apart (glossary : Glossary) (fields : List Text) :
    (Task.annotate glossary none).answerFields fields =
      unlines (fields.map glossary.annotator.annotate) := by
  induction fields with
  | nil => rfl
  | cons field later ih =>
    rw [Task.answerFields, List.map_cons, unlines_cons, ← ih]
    rfl

theorem answerFields_annotate (glossary : Glossary) (shared : Bool) (fields : List Text) :
    (Task.annotate glossary (if shared then some {} else none)).answerFields fields =
      unlines (annotations glossary shared fields) := by
  cases shared with
  | true => exact answerFields_shared glossary {} fields
  | false => exact answerFields_apart glossary fields

/-- What holds of a line and its annotation within any scope holds of all annotations. -/
theorem forall₂_annotations {P : Text → Text → Prop} {glossary : Glossary} {lines : List Text}
    (h : ∀ line ∈ lines, ∀ scope, P line (glossary.annotator.annotateWithin scope line).html)
    (shared : Bool) : List.Forall₂ P lines (annotations glossary shared lines) := by
  cases shared with
  | true =>
    have hshared (scope : Scope) : List.Forall₂ P lines
        ((glossary.annotator.annotateEach scope lines).map Annotated.html) := by
      induction lines generalizing scope with
      | nil => exact .nil
      | cons line later ih =>
        obtain ⟨hline, hlater⟩ := List.forall_mem_cons.mp h
        exact .cons (hline scope) (ih hlater _)
    exact hshared {}
  | false =>
    rw [annotations, if_neg Bool.false_ne_true, List.forall₂_map_right_iff, List.forall₂_same]
    exact fun line hline => h line hline {}

theorem forall_mem_annotations {P : Text → Prop} {glossary : Glossary} {lines : List Text}
    (h : ∀ line ∈ lines, ∀ scope, P (glossary.annotator.annotateWithin scope line).html)
    (shared : Bool) : ∀ annotated ∈ annotations glossary shared lines, P annotated := by
  have hall := forall₂_annotations (P := fun _ annotated => P annotated) h shared
  generalize annotations glossary shared lines = annotated at hall
  clear h
  induction hall with
  | nil => exact List.forall_mem_nil _
  | cons hfirst _ ih => exact List.forall_mem_cons.mpr ⟨hfirst, ih⟩

end Answers

section Lines
variable {annotator : Annotator} {line : Text}

theorem isLine_of_part (hfeed : '\n' ∉ line) (hreturn : '\r' ∉ line) {part : Text}
    (hpart : part <:+: line) : IsLine part where
  noFeed := fun h => hfeed (hpart.subset h)
  noReturn := fun h => hreturn (hpart.subset (List.mem_of_getLast? h))

/-- A line is annotated to one line when the dictionary and the vocabulary bring in no line feed. -/
theorem isLine_annotateWithin (hv : annotator.vocabulary.Sound)
    (hw : annotator.vocabulary.Unbroken)
    (hterms : ∀ term ∈ annotator.dictionary.terms, term.Unbroken) (hfeed : '\n' ∉ line)
    (hreturn : '\r' ∉ line) (scope : Scope) :
    IsLine (annotator.annotateWithin scope line).html := by
  have hlaid := Annotator.laid_find annotator line
  have hparts (part : Text) (hpart : part <:+: line) : IsLine part :=
    isLine_of_part hfeed hreturn hpart
  apply Annotator.html_replaceFrom_closed (fun _ _ => IsLine.append) hlaid hparts
  intro m hm scope
  have hmatched := hparts m.text (hlaid.infix_of_mem hm)
  rcases Annotator.render_cases annotator scope m with h | ⟨term, hterm, h | ⟨variant, h⟩⟩
  · rw [h]
    exact hmatched
  · rw [h]
    exact isLine_renderReference hv hw (hterms term hterm) hmatched.noFeed
  · rw [h]
    exact isLine_renderDefinition hv hw (hterms term hterm) hmatched.noFeed variant

end Lines

section Pipeline
variable {files : Text → Option ByteArray} {arguments arguments' : List Text} {definitions : Text}
  {settings : Option Text} {shared : Bool} {glossary : Glossary} {text : Text}

/-- An annotated text is the annotations of its lines. -/
theorem run_annotate_lines (harguments : Invocation.ofArguments? arguments =
      some (.annotate definitions settings shared []))
    (hload : Loads files definitions settings glossary)
    (hends : ∀ line ∈ linesOf text, line.getLast? ≠ some '\r') :
    run files (utf8 text) arguments =
      ⟨0, unlines (annotations glossary shared (linesOf text))⟩ := by
  rw [run_annotate harguments hload, run_lines _ hends, answerFields_annotate]

/-- The markup is removed from every line by itself. -/
theorem run_strip_lines {loaded : EngineSettings}
    (harguments : Invocation.ofArguments? arguments = some (.strip settings []))
    (hload : Id.run (loadSettings (reading files) settings).run = .ok loaded)
    (hends : ∀ line ∈ linesOf text, line.getLast? ≠ some '\r') :
    run files (utf8 text) arguments =
      ⟨0, unlines ((linesOf text).map (strip loaded.markup))⟩ := by
  rw [run_strip harguments hload, run_lines _ hends, answerFields_strip]

/-- Annotating an input line by line gives one line for each, and removing the markup from the
output gives the lines back. No carriage return may stand in the input, and no line feed in what
the dictionary and the vocabulary bring in: prose goes in verbatim, and a definition over two lines
makes two lines of output, of which the second is no markup any more. -/
theorem annotate_strip_lines (hannotate : Invocation.ofArguments? arguments =
      some (.annotate definitions settings shared []))
    (hstrip : Invocation.ofArguments? arguments' = some (.strip settings []))
    (hload : Loads files definitions settings glossary)
    (hprose : ∀ term ∈ glossary.dictionary.terms, ProseBalanced term)
    (hvocabulary : glossary.annotator.vocabulary.Unbroken)
    (hterms : ∀ term ∈ glossary.dictionary.terms, term.Unbroken)
    (hreturn : '\r' ∉ text)
    (hfree : ∀ line ∈ linesOf text, FreeOf glossary.annotator.vocabulary line)
    (hfound : ∀ line ∈ linesOf text, ∀ found ∈ glossary.annotator.find line,
      Untagged found.text) :
    let lines := linesOf text
    let annotated := annotations glossary shared lines
    run files (utf8 text) arguments = ⟨0, unlines annotated⟩ ∧
    linesOf (unlines annotated) = annotated ∧
    run files (utf8 (unlines annotated)) arguments' = ⟨0, unlines lines⟩ := by
  intro lines annotated
  obtain ⟨loaded, hsettings, hmarkup, hsound⟩ := exists_settings_of_loads hload
  have hv : glossary.annotator.vocabulary.Sound := hmarkup ▸ hsound
  have hchars (line : Text) (hline : line ∈ lines) : '\n' ∉ line ∧ '\r' ∉ line :=
    ⟨fun h => (mem_of_mem_linesOf hline h).2 rfl, fun h => hreturn (mem_of_mem_linesOf hline h).1⟩
  have hshape : ∀ line ∈ annotated, IsLine line := by
    apply forall_mem_annotations
    intro line hline scope
    obtain ⟨hfeed, hreturn⟩ := hchars line hline
    exact isLine_annotateWithin hv hvocabulary hterms hfeed hreturn scope
  have hback : lines = annotated.map (strip loaded.markup) := by
    rw [← hmarkup, ← List.forall₂_eq_eq_eq, List.forall₂_map_right_iff]
    apply forall₂_annotations
    intro line hline scope
    exact (Annotator.strip_html_annotateWithin hv hprose (hfree line hline) (hfound line hline)
      scope).symm
  have hlines : linesOf (unlines annotated) = annotated :=
    linesOf_unlines fun line hline => (hshape line hline).noFeed
  have hends (line : Text) (hline : line ∈ lines) : line.getLast? ≠ some '\r' :=
    fun h => (hchars line hline).2 (List.mem_of_getLast? h)
  have hends' (line : Text) (hline : line ∈ linesOf (unlines annotated)) :
      line.getLast? ≠ some '\r' := (hshape line (hlines ▸ hline)).noReturn
  refine ⟨run_annotate_lines hannotate hload hends, hlines, ?_⟩
  rw [run_strip_lines hstrip hsettings hends', hlines, ← hback]

end Pipeline

private theorem exists_loads {files : Text → Option ByteArray} {definitions : Text}
    {settings : Option Text} {P : Glossary → Prop} [DecidablePred P]
    (h : (Id.run (loadGlossary (reading files) definitions settings).run).toOption.any
      (fun glossary => decide (P glossary)) = true) :
    ∃ glossary, Loads files definitions settings glossary ∧ P glossary := by
  cases hload : Id.run (loadGlossary (reading files) definitions settings).run with
  | error fault =>
    rw [hload] at h
    cases h
  | ok glossary =>
    rw [hload] at h
    exact ⟨glossary, hload, of_decide_eq_true h⟩

/-- Files with one term and its short form, given the scalar that defines the term, and with
settings that change nothing. -/
def riskFiles (meaning : Text) (path : Text) : Option ByteArray :=
  if path = "risk.yaml".toList then
    some ⟨(utf8 ("definitions:\n- term: Risico\n  definition: ".toList ++ meaning ++
      "\nalternative_spellings:\n- text: ris\n  refers_to: risico\n".toList)).toArray⟩
  else if path = "plain.yaml".toList then some ⟨(utf8 "version: \"1.0\"\n".toList).toArray⟩
  else none

def riskTerm (definition : Text) : Term where
  id := "risico".toList
  name := "Risico".toList
  key := "risico".toList
  definition := definition

def annotateRisk : List Text :=
  ["annotate".toList, "-d".toList, "risk.yaml".toList, "-c".toList, "plain.yaml".toList]

def stripRisk : List Text :=
  ["strip".toList, "-c".toList, "plain.yaml".toList]

private theorem ofArguments?_annotateRisk : Invocation.ofArguments? annotateRisk =
    some (.annotate "risk.yaml".toList (some "plain.yaml".toList) false []) := rfl

private theorem ofArguments?_stripRisk : Invocation.ofArguments? stripRisk =
    some (.strip (some "plain.yaml".toList) []) := rfl

theorem annotate_strip_lines_risk :
    let text := "Risico, ris.\n<span>het risico".toList
    let files := riskFiles "<i>kans</i> maal <span>gevolg</span>".toList
    ∃ output, run files (utf8 text) annotateRisk = ⟨0, output⟩ ∧ (linesOf output).length = 2 ∧
      run files (utf8 output) stripRisk = ⟨0, text ++ ['\n']⟩ := by
  intro text files
  obtain ⟨glossary, hload, hterms, hvocabulary, hfree, hfound⟩ : ∃ glossary,
      Loads files "risk.yaml".toList (some "plain.yaml".toList) glossary ∧
      glossary.dictionary.terms = [riskTerm "<i>kans</i> maal <span>gevolg</span>".toList] ∧
      glossary.annotator.vocabulary.Unbroken ∧
      (∀ line ∈ linesOf text, FreeOf glossary.annotator.vocabulary line) ∧
      ∀ line ∈ linesOf text, ∀ found ∈ glossary.annotator.find line, Untagged found.text := by
    apply exists_loads
    decide +kernel
  have hprose : ∀ term ∈ glossary.dictionary.terms, ProseBalanced term := by
    rw [hterms, List.forall_mem_singleton]
    exact ⟨by decide +kernel, nofun, nofun⟩
  have hunbroken : ∀ term ∈ glossary.dictionary.terms, term.Unbroken := by
    rw [hterms, List.forall_mem_singleton]
    exact ⟨by decide, by decide, nofun, nofun⟩
  have hreturn : '\r' ∉ text := by decide
  obtain ⟨hannotated, hlines, hback⟩ := annotate_strip_lines ofArguments?_annotateRisk
    ofArguments?_stripRisk hload hprose hvocabulary hunbroken hreturn hfree hfound
  refine ⟨_, hannotated, ?_, hback⟩
  rw [hlines]
  rfl

/-- A definition over two lines, which is balanced, turns one line into two, and the markup cannot
be removed from them line by line. -/
theorem annotate_strip_lines_broken :
    let text := "Risico\n".toList
    let files := riskFiles "\"kans\\nmaal gevolg\"".toList
    let output := ("<span class=\"aiv-definition\">Risico<span class=\"aiv-definition-text\">" ++
      "<span class=\"aiv-definition-body\">kans\nmaal gevolg</span></span></span>\n").toList
    (∃ glossary, Loads files "risk.yaml".toList (some "plain.yaml".toList) glossary ∧
      (∀ term ∈ glossary.dictionary.terms, ProseBalanced term) ∧
      (∀ line ∈ linesOf text, FreeOf glossary.annotator.vocabulary line) ∧
      ∀ line ∈ linesOf text, ∀ found ∈ glossary.annotator.find line, Untagged found.text) ∧
    run files (utf8 text) annotateRisk = ⟨0, output⟩ ∧
    (linesOf text).length = 1 ∧ (linesOf output).length = 2 ∧
    run files (utf8 output) stripRisk =
      ⟨0, "Risico\nmaal gevolg</span></span></span>\n".toList⟩ := by
  intro text files output
  obtain ⟨glossary, hload, hterms, hfree, hfound, hannotated, hstripped⟩ : ∃ glossary,
      Loads files "risk.yaml".toList (some "plain.yaml".toList) glossary ∧
      glossary.dictionary.terms = [riskTerm "kans\nmaal gevolg".toList] ∧
      (∀ line ∈ linesOf text, FreeOf glossary.annotator.vocabulary line) ∧
      (∀ line ∈ linesOf text, ∀ found ∈ glossary.annotator.find line, Untagged found.text) ∧
      unlines (annotations glossary false (linesOf text)) = output ∧
      unlines ((linesOf output).map (strip glossary.annotator.vocabulary)) =
        "Risico\nmaal gevolg</span></span></span>\n".toList := by
    apply exists_loads
    decide +kernel
  have hprose : ∀ term ∈ glossary.dictionary.terms, ProseBalanced term := by
    rw [hterms, List.forall_mem_singleton]
    exact ⟨by decide +kernel, nofun, nofun⟩
  obtain ⟨loaded, hsettings, hmarkup, -⟩ := exists_settings_of_loads hload
  have hends : ∀ line ∈ linesOf text, line.getLast? ≠ some '\r' := by decide
  have hends' : ∀ line ∈ linesOf output, line.getLast? ≠ some '\r' := by decide +kernel
  refine ⟨⟨glossary, hload, hprose, hfree, hfound⟩, ?_, by decide, by decide +kernel, ?_⟩
  · rw [run_annotate_lines ofArguments?_annotateRisk hload hends, hannotated]
  · rw [run_strip_lines ofArguments?_stripRisk hsettings hends', ← hmarkup, hstripped]

end Gloss.Command
