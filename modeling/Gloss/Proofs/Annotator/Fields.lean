import Gloss.Proofs.Annotator.SharedScope

/-! Fields that share a scope, and the one text they are with a separator between them. -/
namespace Gloss.Annotator
open Text

/-- A character that no word and no entry reaches over. -/
structure Separates (annotator : Annotator) (dictionary : Dictionary) (c : Char) : Prop where
  no_word : annotator.index.words.isWordChar c = false
  in_no_entry : ∀ entry ∈ dictionary.entries, ¬ foldCase [c] <:+: foldCase entry.text

section Separator
variable {annotator : Annotator} {dictionary : Dictionary} {c : Char}
  (h : annotator.Made dictionary) (hc : annotator.Separates dictionary c)
include h hc

theorem get?_eq_none_of_mem {part : Text} (hpart : c ∈ part) :
    annotator.index.get? part = none := by
  obtain ⟨vocabulary, words, rfl⟩ := h.eq_ofDictionary
  rw [Option.eq_none_iff_forall_ne_some]
  intro n hn
  obtain ⟨entry, hentry, hfold⟩ := exists_entry_of_get? hn
  apply hc.in_no_entry entry hentry
  rw [hfold]
  exact foldCase_infix_of_mem hpart

theorem find_append_separator (field rest : Text) :
    annotator.find (field ++ c :: rest) = annotator.find field ++
      (annotator.find rest).map (·.shift (byteLength field + c.utf8Size)) := by
  have hlookup (part : Text) (hpart : c ∈ part) : annotator.index.get? part = none :=
    get?_eq_none_of_mem h hc hpart
  rw [find, find, find, PatternIndex.resolve_find, PatternIndex.resolve_find,
    PatternIndex.resolve_find, leftmostLongest_append_separator hc.no_word hlookup,
    ← leftmostLongest_shift, Nat.add_assoc]

/-- The separator is copied, and what is behind it is a text of its own, which finds the scope that
the text before it leaves. -/
theorem annotateWithin_append_separator (scope : Scope) (field rest : Text) :
    annotator.annotateWithin scope (field ++ c :: rest) =
      append (annotator.annotateWithin scope field)
        (append ⟨[c], (annotator.annotateWithin scope field).scope, {}⟩
          (annotator.annotateWithin (annotator.annotateWithin scope field).scope rest)) := by
  let bytes := byteLength field + byteLength [c]
  have hrest : Laid (0 + byteLength field + byteLength [c]) rest
      ((annotator.find rest).map (·.shift bytes)) := by
    rw [Nat.add_assoc]
    exact (laid_find annotator rest).shift bytes
  have hbehind : Laid (0 + byteLength field) ([c] ++ rest)
      ((annotator.find rest).map (·.shift bytes)) := Laid.cons hrest
  have hfind : annotator.find (field ++ ([c] ++ rest)) =
      annotator.find field ++ (annotator.find rest).map (·.shift bytes) :=
    find_append_separator h hc field rest
  rw [annotateWithin, ← List.singleton_append, hfind,
    replaceFrom_append (laid_find annotator field) hbehind, replaceFrom_copy hrest, Nat.add_assoc,
    replaceFrom_shift]
  rfl

/-- Fields that are annotated one after another with one scope come out as the text does that has
them all, with a separator between them. -/
theorem annotateWithin_intercalate (scope : Scope) (fields : List Text) :
    (annotator.annotateWithin scope ([c].intercalate fields)).html =
        [c].intercalate ((annotator.annotateEach scope fields).map Annotated.html) ∧
      (annotator.annotateWithin scope ([c].intercalate fields)).scope =
        annotator.scopeBehind scope fields := by
  induction fields generalizing scope with
  | nil =>
    rw [List.intercalate_nil]
    exact ⟨rfl, rfl⟩
  | cons field rest ih =>
    cases rest with
    | nil =>
      rw [List.intercalate_singleton]
      exact ⟨(List.intercalate_singleton ..).symm, rfl⟩
    | cons next later =>
      obtain ⟨hhtml, hscope⟩ := ih (annotator.annotateWithin scope field).scope
      rw [List.intercalate_cons_cons, List.append_assoc, List.singleton_append,
        annotateWithin_append_separator h hc]
      refine ⟨?_, hscope⟩
      have hrest : [c].intercalate ((annotator.annotateEach scope
            (field :: next :: later)).map Annotated.html) =
          (annotator.annotateWithin scope field).html ++ [c] ++
            [c].intercalate ((annotator.annotateEach (annotator.annotateWithin scope field).scope
              (next :: later)).map Annotated.html) := List.intercalate_cons_cons
      rw [hrest, List.append_assoc, ← hhtml]
      rfl

end Separator

def hazardSource : Source where
  definitions :=
    [{ term := some "Risico".toList, definition := some "kans".toList },
     { term := some "kans".toList, definition := some "maat".toList }]
  alternativeSpellings := [{ text := some "ris".toList, refersTo := some "risico".toList }]
  alternativeTerms := [{ text := some "gevaar".toList, refersTo := some "risico".toList }]

theorem annotateWithin_intercalate_lines : ∃ dictionary,
    Dictionary.build hazardSource {} = .ok dictionary ∧
    (withDefaults dictionary).Made dictionary ∧
    (withDefaults dictionary).Separates dictionary '\n' ∧
    ((withDefaults dictionary).annotateWithin { keys := ["kans".toList] }
        (['\n'].intercalate ["gevaar, ris".toList, [], "kans\nRISICO".toList])).html =
      ['\n'].intercalate (((withDefaults dictionary).annotateEach { keys := ["kans".toList] }
        ["gevaar, ris".toList, [], "kans\nRISICO".toList]).map Annotated.html) ∧
    ((withDefaults dictionary).scopeBehind { keys := ["kans".toList] }
      ["gevaar, ris".toList, [], "kans\nRISICO".toList]).keys =
        ["risico".toList, "kans".toList] := by
  obtain ⟨dictionary, hbuild⟩ : ∃ dictionary,
      Dictionary.build hazardSource {} = .ok dictionary := ⟨_, rfl⟩
  have hmade : (withDefaults dictionary).Made dictionary := .inr rfl
  have hseparates : (withDefaults dictionary).Separates dictionary '\n' := by
    cases hbuild
    exact ⟨by decide +kernel, by decide +kernel⟩
  obtain ⟨hhtml, hscope⟩ := annotateWithin_intercalate hmade hseparates { keys := ["kans".toList] }
    ["gevaar, ris".toList, [], "kans\nRISICO".toList]
  refine ⟨dictionary, hbuild, hmade, hseparates, hhtml, ?_⟩
  rw [← hscope]
  cases hbuild
  decide +kernel

end Gloss.Annotator
