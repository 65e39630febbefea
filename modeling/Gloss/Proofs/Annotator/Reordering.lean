import Gloss.Proofs.Annotator.Agreement
import Gloss.Proofs.Annotator.Replacement
import Gloss.Proofs.Dictionary.Reordering
import Gloss.Proofs.Pattern.Nodes

/-! Annotating with the same declarations in another order. The ordinals of the entries are others,
but every part of a text leads to the same entry and the same term, so every match is replaced
alike. -/
namespace Gloss.Annotator
open Text

variable {source other : Source} {rules : InflectionRules} {dictionary dictionary' : Dictionary}

theorem map_entry?_entryOf? (dictionary : Dictionary) (part : Text) :
    (entryOf? dictionary part).map dictionary.entry? =
      (dictionary.entries.find? fun entry => foldCase entry.text == foldCase part).map some := by
  rw [List.find?_eq_bind_findIdx?_getElem?, entryOf?]
  cases hn : dictionary.entries.findIdx? fun entry => foldCase entry.text == foldCase part with
  | none => rfl
  | some n =>
    obtain ⟨hlt, -⟩ := List.findIdx?_eq_some_iff_getElem.mp hn
    rw [Option.map_some, Option.bind_some, Dictionary.entry?, List.getElem?_eq_getElem hlt]
    rfl

theorem find_mapPayload (h : Dictionary.build source rules = .ok dictionary)
    (vocabulary : Vocabulary) (words : WordChars) (text : Text) :
    ((ofDictionary dictionary vocabulary words).find text).map
        (Match.mapPayload dictionary.entry?) =
      leftmostLongest words
        (fun part =>
          (dictionary.entries.find? fun entry => foldCase entry.text == foldCase part).map some)
        none 0 text := by
  rw [find, PatternIndex.resolve_find, ofDictionary, get?_patterns h, PatternIndex.words_ofList,
    ← leftmostLongest_map]
  congr 1
  funext part
  exact map_entry?_entryOf? dictionary part

section Permuted
variable (h : Dictionary.build source rules = .ok dictionary)
  (h' : Dictionary.build other rules = .ok dictionary')
  (hterms : dictionary.terms.Perm dictionary'.terms)
  (hvariants : dictionary.variants.Perm dictionary'.variants)
include hterms hvariants

theorem entries_perm : dictionary.entries.Perm dictionary'.entries :=
  (hterms.map _).append (hvariants.map _)

include h h'

/-- The matches are the same, with the same entries. -/
theorem find_perm (vocabulary : Vocabulary) (words : WordChars) (text : Text) :
    List.Forall₂ (fun m m' => m.text = m'.text ∧ m.start = m'.start ∧ m.stop = m'.stop ∧
        dictionary.entry? m.payload = dictionary'.entry? m'.payload)
      ((ofDictionary dictionary vocabulary words).find text)
      ((ofDictionary dictionary' vocabulary words).find text) := by
  have hlookup (part : Text) :
      (dictionary.entries.find? fun entry => foldCase entry.text == foldCase part) =
        dictionary'.entries.find? fun entry => foldCase entry.text == foldCase part :=
    Dictionary.find?_perm (foldCase ∘ Entry.text) (entries_perm hterms hvariants)
      (Dictionary.folds_nodup_of_build h) (foldCase part)
  have hmap := find_mapPayload h vocabulary words text
  simp only [hlookup] at hmap
  rw [← find_mapPayload h' vocabulary words text, ← List.forall₂_eq_eq_eq,
    List.forall₂_map_left_iff, List.forall₂_map_right_iff] at hmap
  refine hmap.imp ?_
  intro m m' hm
  obtain ⟨htext, hentry, hstart, hstop⟩ := Match.mk.inj hm
  exact ⟨htext, hstart, hstop, hentry⟩

theorem annotateWithin_perm (vocabulary : Vocabulary) (words : WordChars) (scope : Scope)
    (text : Text) :
    (ofDictionary dictionary vocabulary words).annotateWithin scope text =
      (ofDictionary dictionary' vocabulary words).annotateWithin scope text := by
  have hterm : dictionary.termByKey? = dictionary'.termByKey? := by
    funext key
    exact Dictionary.find?_perm Term.key hterms (Dictionary.keys_nodup_of_build h) key
  apply replaceFrom_congr
  refine (find_perm h h' hterms hvariants vocabulary words text).imp ?_
  rintro m m' ⟨htext, hstart, hstop, hentry⟩
  refine ⟨hstart, hstop, render_congr rfl ?_ htext⟩
  simp only [meaning?, ofDictionary, hentry, hterm]

end Permuted

/-- Every order of the declarations annotates alike when nothing is dropped. Entries move to other
ordinals, and the prefix tree to other nodes, but it has as many of them. -/
theorem annotateWithin_reordered (h : Dictionary.build source rules = .ok dictionary)
    (hdropped : dictionary.stats.dropped = 0) (hother : source.Reordered other) :
    ∃ dictionary', Dictionary.build other rules = .ok dictionary' ∧
      dictionary'.stats = dictionary.stats ∧
      ∀ vocabulary words,
        let annotator := ofDictionary dictionary vocabulary words
        let annotator' := ofDictionary dictionary' vocabulary words
        annotator'.index.size = annotator.index.size ∧
        annotator'.index.nodeCount = annotator.index.nodeCount ∧
        ∀ scope text,
          annotator'.annotateWithin scope text = annotator.annotateWithin scope text := by
  have hnone : dictionary.dropped = 0 := hdropped
  obtain ⟨dictionary', h', hnone', hterms, hvariants⟩ :=
    Dictionary.build_reordered h hnone hother
  have hentries := entries_perm hterms hvariants
  refine ⟨dictionary', h', ?_, ?_⟩
  · rw [Dictionary.stats, Dictionary.stats, hnone, hnone', hterms.length_eq, hvariants.length_eq]
  · intro vocabulary words annotator annotator'
    refine ⟨?_, ?_, ?_⟩
    · exact (size_index h' words).trans (hentries.length_eq.symm.trans (size_index h words).symm)
    · apply PatternIndex.nodeCount_perm
      rw [← List.map_map, ← List.map_map, map_fst_patterns, map_fst_patterns]
      exact (hentries.symm.map Entry.text).map foldCase
    · intro scope text
      exact (annotateWithin_perm h h' hterms hvariants vocabulary words scope text).symm

def animalSource : Source where
  definitions :=
    [{ term := some "Kat".toList, definition := some "dier".toList,
       inflections := ["katjes".toList, " Katers".toList] },
     { term := some "Hond".toList, definition := some "ander dier".toList }]
  alternativeSpellings :=
    [{ text := some "kadt".toList, refersTo := some "kat".toList },
     { text := some "hont ".toList, refersTo := some " hond".toList }]
  alternativeTerms := [{ text := some "poes".toList, refersTo := some "kat".toList }]

def animalSource' : Source where
  definitions :=
    [{ term := some "Hond".toList, definition := some "ander dier".toList },
     { term := some "Kat".toList, definition := some "dier".toList,
       inflections := [" Katers".toList, "katjes".toList] }]
  alternativeSpellings :=
    [{ text := some "hont ".toList, refersTo := some " hond".toList },
     { text := some "kadt".toList, refersTo := some "kat".toList }]
  alternativeTerms := animalSource.alternativeTerms

theorem annotateWithin_reordered_animals : ∃ dictionary dictionary',
    Dictionary.build animalSource { suffixes := ["s".toList] } = .ok dictionary ∧
    dictionary.stats = ⟨2, 8, 0⟩ ∧
    Dictionary.build animalSource' { suffixes := ["s".toList] } = .ok dictionary' ∧
    dictionary'.stats = ⟨2, 8, 0⟩ ∧
    dictionary'.entry? 0 ≠ dictionary.entry? 0 ∧
    (ofDictionary dictionary' {} {}).index.nodeCount =
      (ofDictionary dictionary {} {}).index.nodeCount ∧
    ((ofDictionary dictionary' {} {}).annotateWithin {} "HONT en katers".toList).html =
      ((ofDictionary dictionary {} {}).annotateWithin {} "HONT en katers".toList).html := by
  obtain ⟨dictionary, h⟩ : ∃ dictionary,
      Dictionary.build animalSource { suffixes := ["s".toList] } = .ok dictionary := ⟨_, rfl⟩
  have hstats : dictionary.stats = ⟨2, 8, 0⟩ := by
    cases h
    decide
  have hother : animalSource.Reordered animalSource' := by
    refine ⟨⟨animalSource.definitions.reverse, by decide, ?_⟩, by decide, List.Perm.refl _⟩
    exact .cons ⟨List.Perm.refl _, rfl⟩ (.cons ⟨by decide, rfl⟩ .nil)
  obtain ⟨dictionary', h', hstats', hrest⟩ :=
    annotateWithin_reordered h (congrArg Dictionary.Stats.dropped hstats) hother
  obtain ⟨-, hnodes, hequal⟩ := hrest {} {}
  refine ⟨dictionary, dictionary', h, hstats, h', hstats'.trans hstats, ?_, hnodes, ?_⟩
  · cases h
    cases h'
    decide
  · exact congrArg Annotated.html (hequal {} _)

end Gloss.Annotator
