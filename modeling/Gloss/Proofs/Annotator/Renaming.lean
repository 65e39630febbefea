import Gloss.Proofs.Annotator.Replacement
import Gloss.Proofs.Dictionary.Renaming
import Gloss.Proofs.Annotator.Matches

/-! Annotating with renamed identifiers. A match is looked up by the text of its entry and rendered
from what its term shows, so identifiers and categories leave no trace in the output. -/
namespace Gloss.Annotator
open Text
variable {source other : Source} {rules : InflectionRules}

theorem patterns_anonymous (dictionary : Dictionary) :
    patterns dictionary.anonymous = patterns dictionary := by
  rw [patterns, Dictionary.entries_anonymous, List.zipIdx_map, List.map_map, patterns]
  congr 1
  funext pair
  exact congrArg (·, pair.2) pair.1.text_anonymous

section Anonymous
variable (dictionary : Dictionary) (vocabulary : Vocabulary) (words : WordChars)

theorem find_anonymous (text : Text) :
    (ofDictionary dictionary.anonymous vocabulary words).find text =
      (ofDictionary dictionary vocabulary words).find text := by
  rw [find, ofDictionary, patterns_anonymous]
  rfl

theorem meaning?_anonymous (found : Match Nat) :
    (ofDictionary dictionary.anonymous vocabulary words).meaning? found =
      ((ofDictionary dictionary vocabulary words).meaning? found).map
        (Prod.map Entry.anonymous Term.anonymous) := by
  simp only [meaning?, ofDictionary, Dictionary.entry?, Dictionary.entries_anonymous,
    List.getElem?_map]
  cases dictionary.entries[found.payload]? with
  | none => rfl
  | some entry =>
    simp only [Option.map_some, Option.bind_eq_bind, Option.bind_some,
      Entry.canonicalKey_anonymous, Dictionary.termByKey?_anonymous]
    cases dictionary.termByKey? entry.canonicalKey <;> rfl

theorem render_anonymous (scope : Scope) (found : Match Nat) :
    (ofDictionary dictionary.anonymous vocabulary words).render scope found =
      (ofDictionary dictionary vocabulary words).render scope found := by
  unfold render
  rw [meaning?_anonymous]
  cases (ofDictionary dictionary vocabulary words).meaning? found with
  | none => rfl
  | some meaning =>
    obtain ⟨entry, term⟩ := meaning
    cases entry <;> rfl

theorem annotateWithin_anonymous (scope : Scope) (text : Text) :
    (ofDictionary dictionary.anonymous vocabulary words).annotateWithin scope text =
      (ofDictionary dictionary vocabulary words).annotateWithin scope text := by
  rw [annotateWithin, find_anonymous]
  apply replaceFrom_congr
  apply List.forall₂_same.mpr
  intro found _
  exact ⟨rfl, rfl, fun scope => render_anonymous dictionary vocabulary words scope found⟩

end Anonymous

/-- Identifiers and categories never show. Renamed identifiers link the same variants to the same
terms, so the same entries are registered and every text is annotated alike. -/
theorem annotateWithin_renamed {dictionary : Dictionary} {rename : Text → Text}
    (h : Dictionary.build source rules = .ok dictionary) (hother : source.Renamed rename other) :
    ∃ dictionary', Dictionary.build other rules = .ok dictionary' ∧
      dictionary'.stats = dictionary.stats ∧
      dictionary'.entries.map Entry.registration = dictionary.entries.map Entry.registration ∧
      ∀ vocabulary words scope text,
        (ofDictionary dictionary' vocabulary words).annotateWithin scope text =
          (ofDictionary dictionary vocabulary words).annotateWithin scope text := by
  obtain ⟨dictionary', h', hequal⟩ := Dictionary.build_renamed h hother
  refine ⟨dictionary', h', ?_, ?_, ?_⟩
  · rw [← Dictionary.stats_anonymous, hequal, Dictionary.stats_anonymous]
  · rw [← Dictionary.registrations_anonymous, hequal, Dictionary.registrations_anonymous]
  · intro vocabulary words scope text
    rw [← annotateWithin_anonymous, hequal, annotateWithin_anonymous]

/-- Terms with an explicit identifier, a derived one and the case fold as the last resort, with
variants of each and one that refers to nothing. -/
def linkedSource : Source where
  definitions :=
    [{ id := some " dier-1 ".toList, term := some "Kat".toList, definition := some "dier".toList,
       category := some "A".toList, inflections := ["katje".toList] },
     { term := some "Hond".toList, definition := some "ander dier".toList },
     { term := some "!?".toList, definition := some "leestekens".toList }]
  alternativeSpellings :=
    [{ text := some "poes".toList, refersTo := some "dier-1".toList },
     { text := some "hont".toList, refersTo := some " hond ".toList },
     { text := some "muis".toList, refersTo := some "muis".toList }]
  alternativeTerms := [{ text := some "uitroep".toList, refersTo := some "!?".toList }]

def exchange (id : Text) : Text :=
  if id = "hond".toList then "dier-1".toList
  else if id = "dier-1".toList then "hond".toList
  else id

def linkedSource' : Source where
  definitions :=
    [{ id := some "hond".toList, term := some "Kat".toList, definition := some "dier".toList,
       inflections := ["katje".toList] },
     { id := some "dier-1".toList, term := some "Hond".toList,
       definition := some "ander dier".toList },
     { id := some "!?".toList, term := some "!?".toList, definition := some "leestekens".toList }]
  alternativeSpellings :=
    [{ text := some "poes".toList, refersTo := some " hond".toList },
     { text := some "hont".toList, refersTo := some "dier-1".toList },
     { text := some "muis".toList }]
  alternativeTerms := [{ text := some "uitroep".toList, refersTo := some "!? ".toList }]

theorem linkedSource_renamed : linkedSource.Renamed exchange linkedSource' := by
  refine ⟨by decide, by decide, ?_, ?_, ?_⟩
  · exact .cons ⟨⟨_, rfl, rfl⟩, rfl⟩ (.cons ⟨⟨_, rfl, rfl⟩, rfl⟩ (.cons ⟨⟨_, rfl, rfl⟩, rfl⟩ .nil))
  · exact .cons ⟨rfl, by decide, by decide⟩ (.cons ⟨rfl, by decide, by decide⟩
      (.cons ⟨rfl, by decide, by decide⟩ .nil))
  · exact .cons ⟨rfl, by decide, by decide⟩ .nil

theorem annotateWithin_renamed_exchange : ∃ dictionary dictionary',
    Dictionary.build linkedSource {} = .ok dictionary ∧
    linkedSource.Renamed exchange linkedSource' ∧
    Dictionary.build linkedSource' {} = .ok dictionary' ∧
    dictionary'.stats = dictionary.stats ∧ dictionary.stats.dropped = 1 ∧
    dictionary'.termById? "hond".toList ≠ dictionary.termById? "hond".toList ∧
    ((ofDictionary dictionary' {} {}).annotateWithin {} "De poes en de hont!?".toList).html =
      ((ofDictionary dictionary {} {}).annotateWithin {} "De poes en de hont!?".toList).html := by
  obtain ⟨dictionary, h⟩ : ∃ dictionary,
      Dictionary.build linkedSource {} = .ok dictionary := ⟨_, rfl⟩
  obtain ⟨dictionary', h', hstats, -, hequal⟩ := annotateWithin_renamed h linkedSource_renamed
  refine ⟨dictionary, dictionary', h, linkedSource_renamed, h', hstats, ?_, ?_, ?_⟩
  · cases h
    decide
  · cases h
    cases h'
    decide
  · exact congrArg Annotated.html (hequal {} {} {} _)

end Gloss.Annotator
