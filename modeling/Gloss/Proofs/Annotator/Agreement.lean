import Gloss.Proofs.Annotator.Matches

/-! A dictionary and the index of its entries agree. Both tell texts apart by their case folds, so
every entry is registered, under its own ordinal, and every match has a meaning. -/
namespace Gloss.Annotator
open Text
variable {source : Source} {rules : InflectionRules} {dictionary : Dictionary}

theorem length_entries (dictionary : Dictionary) :
    dictionary.entries.length = dictionary.stats.terms + dictionary.stats.variants := by
  simp [Dictionary.entries, Dictionary.stats]

/-- Every entry is new to the index when its turn comes. -/
theorem add_entry (h : Dictionary.build source rules = .ok dictionary) (words : WordChars) {n : Nat}
    {entry : Entry} (hentry : dictionary.entry? n = some entry) :
    ((PatternIndex.ofList words ((patterns dictionary).take n)).add entry.text n).2 = true := by
  have hcall : (patterns dictionary)[n]? = some (entry.text, n) := by
    rw [getElem?_patterns, hentry, Option.map_some]
  have htake : (patterns dictionary).take (n + 1) =
      (patterns dictionary).take n ++ [(entry.text, n)] := by
    rw [List.take_add_one, hcall]
    rfl
  rw [PatternIndex.add_ofList_iff, registered_of_sublist_patterns h (List.take_sublist _ _)]
  constructor
  · exact Dictionary.text_ne_nil_of_build h (List.mem_of_getElem? hentry)
  · have hnodup := (folds_patterns_nodup h).sublist ((List.take_sublist (n + 1) _).map _)
    rw [htake, List.map_append, List.nodup_append] at hnodup
    intro hmem
    exact hnodup.2.2 _ hmem _ List.mem_cons_self rfl

section Index
variable (h : Dictionary.build source rules = .ok dictionary) (words : WordChars)
include h

theorem getElem?_literals (n : Nat) :
    (PatternIndex.ofList words (patterns dictionary)).literals[n]? =
      (dictionary.entry? n).map fun entry => ⟨n, entry.text⟩ := by
  have hr := PatternIndex.registers_ofList words (patterns dictionary)
  rw [registered_patterns h] at hr
  rw [hr.literals, List.getElem?_toArray, List.getElem?_map, getElem?_patterns, Option.map_map]
  rfl

theorem size_index :
    (PatternIndex.ofList words (patterns dictionary)).size = dictionary.entries.length := by
  have hr := PatternIndex.registers_ofList words (patterns dictionary)
  rw [registered_patterns h] at hr
  rw [PatternIndex.size, hr.literals, List.size_toArray, List.length_map, patterns,
    List.length_map, List.length_zipIdx]

theorem get?_index_eq_some_iff {x : Text} {n : Nat} :
    (PatternIndex.ofList words (patterns dictionary)).get? x = some n ↔
      ∃ entry, dictionary.entry? n = some entry ∧ foldCase x = foldCase entry.text := by
  rw [get?_patterns h, entryOf?_eq_some_iff h]

end Index

/-- The index of a dictionary holds its entries and nothing else. Every entry is accepted when it is
added, its ordinal is its place among the entries, and a text is looked up to the entry with its
case fold. So every match has an entry with the case fold of the matched text, and a canonical term
to be rendered with. -/
theorem index_agrees (h : Dictionary.build source rules = .ok dictionary) (vocabulary : Vocabulary)
    (words : WordChars) :
    let annotator := ofDictionary dictionary vocabulary words
    (∀ n entry, dictionary.entry? n = some entry →
      ((PatternIndex.ofList words ((patterns dictionary).take n)).add entry.text n).2 = true) ∧
    annotator.index.size = dictionary.stats.terms + dictionary.stats.variants ∧
    (∀ n < annotator.index.size, ∃ entry, dictionary.entry? n = some entry ∧
      annotator.index.originalText? n = some entry.text ∧
      ∀ x, annotator.index.get? x = some n ↔ foldCase x = foldCase entry.text) ∧
    (∀ x n, annotator.index.get? x = some n → n < annotator.index.size) ∧
    ∀ text, Laid 0 text (annotator.find text) ∧ ∀ found ∈ annotator.find text, ∃ entry term,
      dictionary.entry? found.payload = some entry ∧
      foldCase entry.text = foldCase found.text ∧
      dictionary.canonicalOf? found.payload = some term ∧
      annotator.meaning? found = some (entry, term) := by
  intro annotator
  have hsize : annotator.index.size = dictionary.entries.length := size_index h words
  have hget (x : Text) (n : Nat) : annotator.index.get? x = some n ↔
      ∃ entry, dictionary.entry? n = some entry ∧ foldCase x = foldCase entry.text :=
    get?_index_eq_some_iff h words
  refine ⟨fun n entry => add_entry h words, hsize.trans (length_entries dictionary), ?_, ?_, ?_⟩
  · intro n hn
    obtain ⟨entry, hentry⟩ : ∃ entry, dictionary.entry? n = some entry :=
      ⟨_, List.getElem?_eq_getElem (hsize ▸ hn)⟩
    refine ⟨entry, hentry, ?_, ?_⟩
    · have hliteral := getElem?_literals h words n
      rw [hentry] at hliteral
      exact congrArg (Option.map Literal.text) hliteral
    · intro x
      rw [hget, hentry]
      simp
  · intro x n hx
    obtain ⟨entry, hentry, -⟩ := (hget x n).mp hx
    rw [hsize]
    exact (List.getElem?_eq_some_iff.mp hentry).1
  · intro text
    refine ⟨laid_find annotator text, fun found hfound => ?_⟩
    obtain ⟨entry, hentry, hfold⟩ := exists_entry_of_mem_find h hfound
    obtain ⟨term, hterm⟩ := exists_termByKey? h (List.mem_of_getElem? hentry)
    refine ⟨entry, term, hentry, hfold.symm, ?_, meaning?_eq hentry hterm⟩
    rw [Dictionary.canonicalOf?, hentry, Option.bind_some, hterm]

def dottedSource : Source where
  definitions :=
    [{ term := some " İs ".toList, definition := some "water".toList,
       inflections := [" İSJE".toList] }]
  alternativeSpellings :=
    [{ text := some "i\u0307S".toList, refersTo := some "i_s".toList },
     { text := some "kruiend ijs".toList, refersTo := some " i_s".toList }]

theorem index_agrees_dotted : ∃ dictionary,
    Dictionary.build dottedSource { enabled := false } = .ok dictionary ∧
    dictionary.stats = ⟨1, 2, 1⟩ ∧
    (ofDictionary dictionary {} {}).index.size = 3 ∧
    (ofDictionary dictionary {} {}).index.get? "i\u0307sJE".toList = some 2 ∧
    ((ofDictionary dictionary {} {}).find "i\u0307sje, İS".toList).map Match.payload = [2, 0] ∧
    ∀ found ∈ (ofDictionary dictionary {} {}).find "i\u0307sje, İS".toList, ∃ entry term,
      dictionary.entry? found.payload = some entry ∧
      dictionary.canonicalOf? found.payload = some term ∧
      (ofDictionary dictionary {} {}).meaning? found = some (entry, term) := by
  obtain ⟨dictionary, h⟩ : ∃ dictionary,
      Dictionary.build dottedSource { enabled := false } = .ok dictionary := ⟨_, rfl⟩
  have hstats : dictionary.stats = ⟨1, 2, 1⟩ := by
    cases h
    decide
  obtain ⟨-, hsize, hentries, -, hmatches⟩ := index_agrees h {} {}
  rw [hstats] at hsize
  obtain ⟨entry, hentry, -, hget⟩ := hentries 2 (hsize ▸ by decide)
  refine ⟨dictionary, h, hstats, hsize, (hget _).mpr ?_, ?_, ?_⟩
  · cases h
    cases hentry
    decide
  · cases h
    decide +kernel
  · intro found hfound
    obtain ⟨entry, term, hentry, -, hcanonical, hmeaning⟩ := (hmatches _).2 found hfound
    exact ⟨entry, term, hentry, hcanonical, hmeaning⟩

end Gloss.Annotator
