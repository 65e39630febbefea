import Gloss.Proofs.Dictionary.Stream

/-! Which forms are generated for a term: the suffixes in the order of the rules, each form once, and
the doubled plural behind them. Sound rules only ever make a term longer, so that no form takes the
place of its own term. -/
namespace Gloss
open Text

namespace InflectionRules
variable {rules : InflectionRules} {term form : Text}

/-- The term is a short word of letters that ends in one vowel and the consonant `last`, and such
words double. -/
structure Doubles (rules : InflectionRules) (term : Text) (last : Char) : Prop where
  enabled : rules.doubleFinalConsonant = true
  letters : ∀ c ∈ term, isAlphabetic c = true
  length : 2 ≤ term.length ∧ term.length ≤ rules.doublingMaxChars
  ending : ∃ before vowel, term = before ++ [vowel, last] ∧ isVowel last = false ∧
    isVowel vowel = true ∧ ∀ c ∈ before.getLast?, isVowel c = false

def suffixed (rules : InflectionRules) (term : Text) : List Text :=
  (rules.suffixes.map (term ++ ·)).eraseDups

def doubled? (rules : InflectionRules) (term : Text) : Option Text :=
  if rules.doubleFinalConsonant then doubledForm? rules.doublingMaxChars term else none

section Adding

theorem addForm_of_mem {forms : List Text} (h : form ∈ forms) : addForm forms form = forms :=
  if_pos (List.contains_iff_mem.mpr h)

theorem addForm_of_not_mem {forms : List Text} (h : form ∉ forms) :
    addForm forms form = forms ++ [form] :=
  if_neg (mt List.contains_iff_mem.mp h)

theorem mem_addForm_iff {forms : List Text} {new : Text} :
    form ∈ addForm forms new ↔ form ∈ forms ∨ form = new := by
  by_cases h : new ∈ forms
  · rw [addForm_of_mem h, iff_self_or]
    exact fun he => he ▸ h
  · rw [addForm_of_not_mem h, List.mem_append, List.mem_singleton]

theorem addForm_nodup {forms : List Text} (h : forms.Nodup) (form : Text) :
    (addForm forms form).Nodup := by
  by_cases hmem : form ∈ forms
  · rwa [addForm_of_mem hmem]
  · rw [addForm_of_not_mem hmem, ← List.concat_eq_append]
    exact h.concat hmem

theorem foldl_addForm (l : List Text) : l.foldl addForm [] = l.eraseDups := by
  induction l using List.reverseRecOn with
  | nil => rfl
  | append_singleton l form ih =>
    rw [List.foldl_concat, ih, List.eraseDups_append]
    by_cases h : form ∈ l
    · have hgone : [form].removeAll l = [] := by simp [List.removeAll, h]
      rw [addForm_of_mem (List.mem_eraseDups.mpr h), hgone, List.eraseDups_nil, List.append_nil]
    · have hleft : [form].removeAll l = [form] := by simp [List.removeAll, h]
      rw [addForm_of_not_mem (mt List.mem_eraseDups.mp h), hleft]
      rfl

theorem suffixed_nodup (rules : InflectionRules) (term : Text) : (suffixed rules term).Nodup := by
  rw [suffixed, ← foldl_addForm]
  induction rules.suffixes.map (term ++ ·) using List.reverseRecOn with
  | nil => exact List.nodup_nil
  | append_singleton l form ih =>
    rw [List.foldl_concat]
    exact addForm_nodup ih form

end Adding

section Doubling

theorem doubledForm?_eq_some_iff {maxChars : Nat} :
    doubledForm? maxChars term = some form ↔ ∃ before vowel last,
      term = before ++ [vowel, last] ∧ form = term ++ [last, 'e', 'n'] ∧
      term.length ≤ maxChars ∧ (∀ c ∈ term, isAlphabetic c = true) ∧ isVowel last = false ∧
      isVowel vowel = true ∧ ∀ c ∈ before.getLast?, isVowel c = false := by
  unfold doubledForm?
  split
  · next last vowel front hreverse =>
    have hterm : term = front.reverse ++ [vowel, last] := by
      rw [← List.reverse_reverse term, hreverse]
      simp
    simp only [Option.ite_none_right_eq_some, Option.some.injEq, Bool.and_eq_true,
      decide_eq_true_eq, List.all_eq_true, Bool.not_eq_true']
    constructor
    · rintro ⟨⟨⟨⟨⟨hlength, hletters⟩, hlast⟩, hvowel⟩, hfront⟩, rfl⟩
      refine ⟨front.reverse, vowel, last, hterm, rfl, hlength, hletters, hlast, hvowel, ?_⟩
      intro c hc
      rw [List.getLast?_reverse] at hc
      rw [hc] at hfront
      exact hfront
    · rintro ⟨before, vowel', last', he, rfl, hlength, hletters, hlast, hvowel, hfront⟩
      obtain ⟨rfl, hend⟩ := List.append_inj' (hterm.symm.trans he) rfl
      cases hend
      refine ⟨⟨⟨⟨⟨hlength, hletters⟩, hlast⟩, hvowel⟩, ?_⟩, rfl⟩
      rw [List.getLast?_reverse] at hfront
      cases hhead : front.head? with
      | none => rfl
      | some c => exact hfront c hhead
  · next hshort =>
    simp only [reduceCtorEq, false_iff]
    rintro ⟨before, vowel, last, rfl, -⟩
    exact hshort last vowel before.reverse (by simp)

/-- The doubling rule in its own words. -/
theorem doubled?_eq_some_iff : doubled? rules term = some form ↔
    ∃ last, Doubles rules term last ∧ form = term ++ [last, 'e', 'n'] := by
  rw [doubled?, Option.ite_none_right_eq_some, doubledForm?_eq_some_iff]
  constructor
  · rintro ⟨henabled, before, vowel, last, hterm, hform, hlength, hletters, hending⟩
    have htwo : 2 ≤ term.length := by simp [hterm]
    exact ⟨last, ⟨henabled, hletters, ⟨htwo, hlength⟩, before, vowel, hterm, hending⟩, hform⟩
  · rintro ⟨last, ⟨henabled, hletters, ⟨-, hlength⟩, before, vowel, hterm, hending⟩, hform⟩
    exact ⟨henabled, before, vowel, last, hterm, hform, hlength, hletters, hending⟩

theorem Doubles.getLast?_eq {last : Char} (h : Doubles rules term last) :
    term.getLast? = some last := by
  obtain ⟨before, vowel, rfl, -⟩ := h.ending
  simp

end Doubling

section Forms

theorem forms_eq_ite (rules : InflectionRules) (term : Text) : rules.forms term =
    if rules.enabled && term.getLast?.any isAlphabetic then
      (doubled? rules term).elim (suffixed rules term) (addForm (suffixed rules term))
    else [] := by
  rw [forms, foldl_addForm]
  rfl

theorem forms_eq_nil (h : rules.enabled = false ∨ ∀ c ∈ term.getLast?, isAlphabetic c = false) :
    rules.forms term = [] := by
  rw [forms_eq_ite, if_neg]
  rw [Bool.and_eq_true, Option.any_eq_true]
  rintro ⟨henabled, last, hlast, hletter⟩
  rcases h with h | h
  · rw [h] at henabled
    cases henabled
  · rw [h last hlast] at hletter
    cases hletter

/-- The forms of a term that has any: those with a suffix, then the doubled plural. -/
theorem forms_eq {last : Char} (henabled : rules.enabled = true)
    (hlast : term.getLast? = some last) (hletter : isAlphabetic last = true) :
    (Doubles rules term last →
      rules.forms term = addForm (suffixed rules term) (term ++ [last, 'e', 'n'])) ∧
    (¬ Doubles rules term last → rules.forms term = suffixed rules term) := by
  rw [forms_eq_ite, if_pos (by simp [henabled, hlast, hletter])]
  constructor
  · intro hdoubles
    rw [doubled?_eq_some_iff.mpr ⟨last, hdoubles, rfl⟩]
    rfl
  · intro hsingle
    cases hdoubled : doubled? rules term with
    | none => rfl
    | some form =>
      obtain ⟨last', hdoubles, -⟩ := doubled?_eq_some_iff.mp hdoubled
      cases hlast.symm.trans hdoubles.getLast?_eq
      exact absurd hdoubles hsingle

theorem forms_nodup (rules : InflectionRules) (term : Text) : (rules.forms term).Nodup := by
  rw [forms_eq_ite]
  split
  · cases doubled? rules term with
    | none => exact suffixed_nodup rules term
    | some form => exact addForm_nodup (suffixed_nodup rules term) form
  · exact List.nodup_nil

theorem mem_forms (hform : form ∈ rules.forms term) :
    form ∈ suffixed rules term ∨ doubled? rules term = some form := by
  rw [forms_eq_ite] at hform
  split at hform
  · cases hdoubled : doubled? rules term with
    | none =>
      rw [hdoubled] at hform
      exact .inl hform
    | some doubled =>
      rw [hdoubled] at hform
      exact (mem_addForm_iff.mp hform).imp_right (congrArg some ·.symm)
  · cases hform

theorem isBlank_of_mem_suffixes (h : rules.fault? = none) {suffix : Text}
    (hsuffix : suffix ∈ rules.suffixes) : suffix.isBlank = false := by
  unfold fault? at h
  split at h
  · cases h
  · next hnone => exact List.findIdx?_eq_none_iff.mp hnone suffix hsuffix

/-- Sound rules put something behind the term that is not blank. -/
theorem exists_ending_of_mem_forms (h : rules.fault? = none) (hform : form ∈ rules.forms term) :
    ∃ ending : Text, form = term ++ ending ∧ ending.isBlank = false := by
  rcases mem_forms hform with hform | hform
  · rw [suffixed, List.mem_eraseDups, List.mem_map] at hform
    obtain ⟨suffix, hsuffix, rfl⟩ := hform
    exact ⟨suffix, rfl, isBlank_of_mem_suffixes h hsuffix⟩
  · obtain ⟨last, -, he⟩ := doubled?_eq_some_iff.mp hform
    have hletter : isWhite 'n' = false := rfl
    exact ⟨[last, 'e', 'n'], he, by simp [isBlank, hletter]⟩

/-- A generated form is longer than its term when both are trimmed and case is ignored. -/
theorem extends_of_mem_forms (h : rules.fault? = none) (hterm : Trimmed term) (hne : term ≠ [])
    (hform : form ∈ rules.forms term) :
    (foldCase term <+: foldCase form.trim ∧ foldCase form.trim ≠ foldCase term) ∧
      form.trim ≠ [] := by
  obtain ⟨ending, rfl, hending⟩ := exists_ending_of_mem_forms h hform
  obtain ⟨he, hleft⟩ := hterm.trim_append hne hending
  rw [he, foldCase_append]
  refine ⟨⟨List.prefix_append _ _, fun hsame => hleft ?_⟩, List.append_ne_nil_of_left_ne_nil hne _⟩
  exact (foldCase_eq_nil_iff _).mp (List.append_right_eq_self.mp hsame)

end Forms

/-- What is generated for a term, and in which order. Without a last letter there is nothing.
Otherwise each suffix gives a form, repeated ones count once, and a word that doubles gets its
doubled plural behind them unless a suffix gave it already. Under sound rules every form of a
trimmed term goes on behind the term, and still does when it is trimmed and case is ignored, so that
it is neither blank nor taken for the term itself. -/
theorem forms_extend_in_order (rules : InflectionRules) (term : Text) :
    (rules.enabled = false ∨ term = [] ∨ (∃ last ∈ term.getLast?, isAlphabetic last = false) →
      rules.forms term = []) ∧
    (∀ last, rules.enabled = true → term.getLast? = some last → isAlphabetic last = true →
      let suffixed := (rules.suffixes.map (term ++ ·)).eraseDups
      let doubled := term ++ [last, 'e', 'n']
      (Doubles rules term last → rules.forms term =
        if doubled ∈ suffixed then suffixed else suffixed ++ [doubled]) ∧
      (¬ Doubles rules term last → rules.forms term = suffixed)) ∧
    (rules.forms term).Nodup ∧
    (rules.fault? = none → term.trim = term → term.isBlank = false →
      ∀ form ∈ rules.forms term,
        (foldCase term <+: foldCase form.trim ∧ foldCase form.trim ≠ foldCase term) ∧
        form.trim ≠ []) := by
  refine ⟨?_, ?_, forms_nodup rules term, ?_⟩
  · rintro (h | rfl | ⟨last, hlast, hletter⟩)
    · exact forms_eq_nil (.inl h)
    · exact forms_eq_nil (.inr fun c hc => by cases hc)
    · refine forms_eq_nil (.inr fun c hc => ?_)
      cases (Option.mem_unique hlast hc)
      exact hletter
  · intro last henabled hlast hletter suffixed doubled
    obtain ⟨hdoubles, hsingle⟩ := forms_eq henabled hlast hletter
    refine ⟨fun h => (hdoubles h).trans ?_, hsingle⟩
    split
    · next hmem => exact addForm_of_mem hmem
    · next hmem => exact addForm_of_not_mem hmem
  · intro h htrim hblank form hform
    have hne : term ≠ [] := by
      rintro rfl
      cases hblank
    exact extends_of_mem_forms h (trimmed_of_trim_eq htrim) hne hform

theorem forms_extend_in_order_kat :
    let term : Text := "kat".toList
    (({} : InflectionRules).fault? = none ∧ term.trim = term ∧ term.isBlank = false) ∧
    forms {} term = ["kats", "katen", "kat's", "katn", "katten"].map String.toList ∧
    ∀ form ∈ forms {} term,
      (foldCase term <+: foldCase form.trim ∧ foldCase form.trim ≠ foldCase term) ∧
      form.trim ≠ [] := by
  intro term
  have hletters : ∀ c ∈ term, isAlphabetic c = true := List.all_eq_true.mp (by decide +kernel)
  have hbefore : ∀ c ∈ (['k'] : Text).getLast?, isVowel c = false := by
    rintro c ⟨⟩
    decide
  have hdoubles : Doubles {} term 't' :=
    ⟨rfl, hletters, by decide, ['k'], 'a', rfl, by decide, by decide, hbefore⟩
  have hsound : ({} : InflectionRules).fault? = none ∧ term.trim = term ∧ term.isBlank = false := by
    decide +kernel
  obtain ⟨-, horder, -, hextend⟩ := forms_extend_in_order {} term
  refine ⟨hsound, ?_, hextend hsound.1 hsound.2.1 hsound.2.2⟩
  rw [(horder 't' rfl rfl (by decide)).1 hdoubles]
  decide +kernel

end InflectionRules

/-- A dictionary has trimmed names that are not blank, so no form that is generated for one of its
terms is dropped as blank or for the sake of that term. -/
theorem Dictionary.extends_of_build {source : Source} {rules : InflectionRules}
    {dictionary : Dictionary} (h : build source rules = .ok dictionary) {term : Term}
    (hterm : term ∈ dictionary.terms) {form : Text} (hform : form ∈ rules.forms term.name) :
    (term.key <+: foldCase form.trim ∧ foldCase form.trim ≠ term.key) ∧ form.trim ≠ [] := by
  obtain ⟨raw, -, name, definition, hname, -, rfl⟩ := exists_definition (gives_of_build h) hterm
  obtain ⟨written, -, hname⟩ := Option.bind_eq_some_iff.mp hname
  obtain ⟨rfl, hne⟩ := nonBlank?_eq_some_iff.mp hname
  exact InflectionRules.extends_of_mem_forms (build_eq_ok_iff.mp h).1 (trimmed_trim written) hne
    hform

end Gloss
