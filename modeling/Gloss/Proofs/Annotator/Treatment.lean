import Gloss.Proofs.Annotator.Outcomes

/-! What a text becomes, told by its dictionary: the entry that a match carries, the canonical term
of that entry, and the keys that have their definition before the match. -/
namespace Gloss
open Text Markup

/-- The second text is the first with every match replaced by what is given for it. -/
def Woven (offset : Nat) (text : Text) : List (Match Nat × Text) → Text → Prop
  | [], html => html = text
  | (found, shown) :: later, html => ∃ before behind rest,
      text = before ++ found.text ++ behind ∧ found.start = offset + byteLength before ∧
        found.stop = found.start + byteLength found.text ∧
        html = before ++ shown ++ rest ∧ Woven found.stop behind later rest

theorem Woven.unique {offset : Nat} {text html html' : Text} {l : List (Match Nat × Text)}
    (h : Woven offset text l html) (h' : Woven offset text l html') : html = html' := by
  induction l generalizing offset text html html' with
  | nil => exact h.trans h'.symm
  | cons replacement later ih =>
    obtain ⟨before, behind, rest, rfl, hstart, -, rfl, hlater⟩ := h
    obtain ⟨before', behind', rest', htext, hstart', -, rfl, hlater'⟩ := h'
    have hlength : byteLength before = byteLength before' :=
      Nat.add_left_cancel (hstart.symm.trans hstart')
    rw [List.append_assoc, List.append_assoc] at htext
    obtain ⟨rfl, hbehind⟩ := append_inj_of_byteLength htext hlength
    obtain rfl := List.append_cancel_left hbehind
    rw [ih hlater hlater']

namespace Annotator
variable (annotator : Annotator)

/-- A match stands for a canonical term through the entry that it carries. -/
structure StandsFor (m : Match Nat) (entry : Entry) (term : Term) : Prop where
  carried : annotator.dictionary.entries[m.payload]? = some entry
  listed : term ∈ annotator.dictionary.terms
  key : term.key = entry.canonicalKey

/-- A variant that is short beside its term, in characters. -/
def IsShort (m : Match Nat) (entry : Entry) (term : Term) : Prop :=
  entry.kind ≠ .canonical ∧
    annotator.vocabulary.redirect.isRedirectable m.text.length term.name.length = true

/-- The match stands for the term with this key and is not redirected. -/
def Counts (m : Match Nat) (key : Text) : Prop :=
  ∃ entry term, annotator.StandsFor m entry term ∧ ¬ annotator.IsShort m entry term ∧
    term.key = key

/-- What becomes of a match when these keys have their definition. -/
inductive Becomes (seen : Text → Prop) (m : Match Nat) : Outcome → Prop where
  | reference {entry : Entry} {term : Term} (hmatch : annotator.StandsFor m entry term)
      (hshort : annotator.IsShort m entry term) : Becomes seen m (.reference term)
  | definition {entry : Entry} {term : Term} (hmatch : annotator.StandsFor m entry term)
      (hlong : ¬ annotator.IsShort m entry term) (hnew : ¬ seen term.key) :
      Becomes seen m (.definition term entry.kind)
  | literal {entry : Entry} {term : Term} (hmatch : annotator.StandsFor m entry term)
      (hlong : ¬ annotator.IsShort m entry term) (hseen : seen term.key) : Becomes seen m .literal

/-- A text within a scope with its matches replaced by these outcomes, each of which is told by the
scope and by the matches before it. -/
structure Treated (scope : Scope) (text : Text) (outcomes : List Outcome) (html : Text) : Prop where
  length : outcomes.length = (annotator.find text).length
  woven : Woven 0 text ((annotator.find text).zipWith
    (fun m outcome => (m, outcome.shown annotator.vocabulary m.text)) outcomes) html
  becomes {place : Nat} {m : Match Nat} {outcome : Outcome} :
    (annotator.find text)[place]? = some m → outcomes[place]? = some outcome →
      annotator.Becomes (fun key => key ∈ scope.keys ∨
        ∃ earlier ∈ (annotator.find text).take place, annotator.Counts earlier key) m outcome

variable {annotator} {source : Source} {rules : InflectionRules} {dictionary : Dictionary}
  {m : Match Nat} {entry : Entry} {term : Term} {key : Text}

theorem Made.dictionary_eq (h : annotator.Made dictionary) : annotator.dictionary = dictionary := by
  obtain ⟨vocabulary, words, rfl⟩ := h.eq_ofDictionary
  rfl

theorem isRedirected_iff :
    annotator.isRedirected m entry term = true ↔ annotator.IsShort m entry term := by
  have hkind : entry.kind.isVariant = true ↔ entry.kind ≠ .canonical := by
    cases entry.kind <;> simp [EntryKind.isVariant, EntryKind.variantKind?]
  rw [isRedirected, Bool.and_eq_true, hkind, IsShort]

section Keys
variable (hkeys : (annotator.dictionary.terms.map Term.key).Nodup)
include hkeys

theorem meaning?_eq_some_iff :
    annotator.meaning? m = some (entry, term) ↔ annotator.StandsFor m entry term := by
  simp only [meaning?, Option.bind_eq_bind, Option.pure_def, Option.bind_eq_some_iff,
    Dictionary.termByKey?, Dictionary.find?_eq_some_iff_of_nodup Term.key hkeys, Option.some.injEq,
    Prod.mk.injEq]
  constructor
  · rintro ⟨entry, hentry, term, ⟨hterm, hkey⟩, rfl, rfl⟩
    exact ⟨hentry, hterm, hkey⟩
  · rintro ⟨hentry, hterm, hkey⟩
    exact ⟨entry, hentry, term, ⟨hterm, hkey⟩, rfl, rfl⟩

theorem StandsFor.unique {entry' : Entry} {term' : Term} (h : annotator.StandsFor m entry term)
    (h' : annotator.StandsFor m entry' term') : entry = entry' ∧ term = term' := by
  rw [← meaning?_eq_some_iff hkeys] at h h'
  cases h.symm.trans h'
  exact ⟨rfl, rfl⟩

theorem countedKey?_eq_some_iff :
    annotator.countedKey? m = some key ↔ annotator.Counts m key := by
  simp only [countedKey?, Option.bind_eq_some_iff, Prod.exists, meaning?_eq_some_iff hkeys,
    Option.ite_none_left_eq_some, isRedirected_iff, Option.some.injEq, Counts]

theorem becomes_iff (hmatch : annotator.StandsFor m entry term) {seen : Text → Prop}
    {keys : List Text} (hseen : ∀ key, seen key ↔ key ∈ keys) {outcome : Outcome} :
    annotator.Becomes seen m outcome ↔ outcome = annotator.outcome keys m := by
  rw [Annotator.outcome, (meaning?_eq_some_iff hkeys).mpr hmatch]
  dsimp only
  constructor
  · intro h
    cases h with
    | reference hmatch' hshort =>
      obtain ⟨rfl, rfl⟩ := StandsFor.unique hkeys hmatch hmatch'
      rw [if_pos (isRedirected_iff.mpr hshort)]
    | definition hmatch' hlong hnew =>
      obtain ⟨rfl, rfl⟩ := StandsFor.unique hkeys hmatch hmatch'
      rw [hseen, ← List.contains_iff_mem] at hnew
      rw [if_neg (hlong ∘ isRedirected_iff.mp), if_neg hnew]
    | literal hmatch' hlong hold =>
      obtain ⟨rfl, rfl⟩ := StandsFor.unique hkeys hmatch hmatch'
      rw [hseen, ← List.contains_iff_mem] at hold
      rw [if_neg (hlong ∘ isRedirected_iff.mp), if_pos hold]
  · rintro rfl
    split_ifs with hshort hold
    · exact .reference hmatch (isRedirected_iff.mp hshort)
    · exact .literal hmatch (hshort ∘ isRedirected_iff.mpr)
        ((hseen _).mpr (List.contains_iff_mem.mp hold))
    · exact .definition hmatch (hshort ∘ isRedirected_iff.mpr)
        (hold ∘ List.contains_iff_mem.mpr ∘ (hseen _).mp)

end Keys

/-- The output is the text with every match replaced by its outcome. -/
theorem woven_replaceFrom {offset : Nat} {text : Text} {found : List (Match Nat)}
    (h : Laid offset text found) (scope : Scope) :
    Woven offset text
      (found.zipWith (fun m outcome => (m, outcome.shown annotator.vocabulary m.text))
        (annotator.outcomes scope found))
      (annotator.replaceFrom scope offset text found).html := by
  induction found generalizing offset text scope with
  | nil => rfl
  | cons m later ih =>
    obtain ⟨before, behind, rfl, hstart, hstop, hlater⟩ := h
    rw [outcomes_cons, List.zipWith_cons_cons, replaceFrom_cons hstart hstop]
    refine ⟨before, behind, _, rfl, hstart, hstop, ?_, ih hlater (annotator.render scope m).scope⟩
    simp only [append, render_eq, List.append_assoc]

section Texts
variable (hbuild : Dictionary.build source rules = .ok dictionary) (h : annotator.Made dictionary)
include hbuild h

theorem Made.keys_nodup : (annotator.dictionary.terms.map Term.key).Nodup :=
  h.dictionary_eq ▸ Dictionary.keys_nodup_of_build hbuild

theorem exists_standsFor {text : Text} (hm : m ∈ annotator.find text) :
    ∃ entry term, annotator.StandsFor m entry term := by
  obtain ⟨entry, term, -, -, hmeaning⟩ := exists_meaning_of_mem_find hbuild h hm
  exact ⟨entry, term, (meaning?_eq_some_iff (Made.keys_nodup hbuild h)).mp hmeaning⟩

/-- A text has one treatment, and it is the one that it gets. -/
theorem treated_iff (scope : Scope) (text : Text) {outcomes : List Outcome} {html : Text} :
    annotator.Treated scope text outcomes html ↔
      outcomes = annotator.outcomes scope (annotator.find text) ∧
        html = (annotator.annotateWithin scope text).html := by
  have hkeys := Made.keys_nodup hbuild h
  have hwoven : Woven 0 text _ (annotator.annotateWithin scope text).html :=
    woven_replaceFrom (laid_find annotator text) scope
  have hbecomes {place : Nat} {m : Match Nat} (hm : (annotator.find text)[place]? = some m)
      (outcome : Outcome) :
      annotator.Becomes (fun key => key ∈ scope.keys ∨
          ∃ earlier ∈ (annotator.find text).take place, annotator.Counts earlier key) m outcome ↔
        (annotator.outcomes scope (annotator.find text))[place]? = some outcome := by
    obtain ⟨entry, term, hmatch⟩ := exists_standsFor hbuild h (List.mem_of_getElem? hm)
    rw [getElem?_outcomes hm, Option.some.injEq, @eq_comm _ _ outcome]
    refine becomes_iff hkeys hmatch fun key => ?_
    simp only [List.mem_append, List.mem_filterMap, countedKey?_eq_some_iff hkeys]
  constructor
  · intro htreated
    have houtcomes : outcomes = annotator.outcomes scope (annotator.find text) := by
      refine List.ext_getElem? fun place => ?_
      cases hm : (annotator.find text)[place]? with
      | none =>
        have hlength := List.getElem?_eq_none_iff.mp hm
        rw [List.getElem?_eq_none (htreated.length ▸ hlength),
          List.getElem?_eq_none (length_outcomes scope _ ▸ hlength)]
      | some m =>
        obtain ⟨hplace, -⟩ := List.getElem?_eq_some_iff.mp hm
        have houtcome := List.getElem?_eq_getElem (htreated.length ▸ hplace)
        rw [houtcome, (hbecomes hm _).mp (htreated.becomes hm houtcome)]
    subst houtcomes
    exact ⟨rfl, htreated.woven.unique hwoven⟩
  · rintro ⟨rfl, rfl⟩
    exact ⟨length_outcomes scope _, hwoven, fun hm houtcome => (hbecomes hm _).mpr houtcome⟩

end Texts

end Annotator
end Gloss
