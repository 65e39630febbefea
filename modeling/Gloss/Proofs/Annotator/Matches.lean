import Gloss.Annotator
import Gloss.Proofs.Dictionary.Stream
import Gloss.Proofs.Pattern.LeftmostLongest

/-! What an annotator finds, in terms of the entries of its dictionary alone. -/
namespace Gloss.Annotator
open Text
variable {source : Source} {rules : InflectionRules} {dictionary : Dictionary}

/-- The annotator is made of the dictionary, with settings that are accepted or by default. -/
def Made (annotator : Annotator) (dictionary : Dictionary) : Prop :=
  (∃ vocabulary words, Annotator.new dictionary vocabulary words = .ok annotator) ∨
    annotator = withDefaults dictionary

theorem new_eq_ok_iff {vocabulary : Vocabulary} {words : WordChars} {annotator : Annotator} :
    Annotator.new dictionary vocabulary words = .ok annotator ↔
      vocabulary.fault? = none ∧ annotator = ofDictionary dictionary vocabulary words := by
  unfold Annotator.new
  cases vocabulary.fault? with
  | some fault => simp
  | none => simp [eq_comm]

theorem Made.eq_ofDictionary {annotator : Annotator} (h : annotator.Made dictionary) :
    ∃ vocabulary words, annotator = ofDictionary dictionary vocabulary words := by
  rcases h with ⟨vocabulary, words, h⟩ | h
  · exact ⟨vocabulary, words, (new_eq_ok_iff.mp h).2⟩
  · exact ⟨{}, {}, h⟩

def entryOf? (dictionary : Dictionary) (part : Text) : Option Nat :=
  dictionary.entries.findIdx? fun entry => foldCase entry.text == foldCase part

theorem map_fst_patterns (dictionary : Dictionary) :
    (patterns dictionary).map Prod.fst = dictionary.entries.map Entry.text := by
  conv_rhs => rw [← List.zipIdx_map_fst 0 dictionary.entries]
  rw [patterns, List.map_map, List.map_map]
  rfl

theorem getElem?_patterns (dictionary : Dictionary) (n : Nat) :
    (patterns dictionary)[n]? = (dictionary.entry? n).map fun entry => (entry.text, n) := by
  simp only [patterns, Dictionary.entry?, List.getElem?_map, List.getElem?_zipIdx, Option.map_map,
    Nat.zero_add]
  rfl

private theorem snd_of_getElem?_patterns {n : Nat} {call : Text × Nat}
    (h : (patterns dictionary)[n]? = some call) : call.2 = n := by
  rw [getElem?_patterns, Option.map_eq_some_iff] at h
  obtain ⟨entry, -, rfl⟩ := h
  rfl

theorem folds_patterns_nodup (h : Dictionary.build source rules = .ok dictionary) :
    ((patterns dictionary).map (foldCase ∘ Prod.fst)).Nodup := by
  rw [← List.map_map, map_fst_patterns, List.map_map]
  exact Dictionary.folds_nodup_of_build h

/-- Every entry of a dictionary is registered as a pattern, under its own ordinal, and so it is
after any of the others. -/
theorem registered_of_sublist_patterns (h : Dictionary.build source rules = .ok dictionary)
    {calls : List (Text × Nat)} (hcalls : calls.Sublist (patterns dictionary)) :
    PatternIndex.registered calls = calls := by
  have hnonempty (call : Text × Nat) (hcall : call ∈ calls) : (!call.1.isEmpty) = true := by
    have hmem := List.mem_map_of_mem (f := Prod.fst) (hcalls.subset hcall)
    rw [map_fst_patterns] at hmem
    obtain ⟨entry, hentry, htext⟩ := List.mem_map.mp hmem
    simp [← htext, Dictionary.text_ne_nil_of_build h hentry]
  have hnodup : (calls.map (foldCase ∘ Prod.fst)).Nodup :=
    (folds_patterns_nodup h).sublist (hcalls.map _)
  rw [PatternIndex.registered, List.filter_eq_self.mpr hnonempty, keepFirst_of_nodup hnodup]

theorem registered_patterns (h : Dictionary.build source rules = .ok dictionary) :
    PatternIndex.registered (patterns dictionary) = patterns dictionary :=
  registered_of_sublist_patterns h (List.Sublist.refl _)

theorem get?_patterns (h : Dictionary.build source rules = .ok dictionary) (words : WordChars) :
    (PatternIndex.ofList words (patterns dictionary)).get? = entryOf? dictionary := by
  funext part
  have hr := PatternIndex.registers_ofList words (patterns dictionary)
  rw [registered_patterns h] at hr
  have hfind : ((patterns dictionary).findIdx? fun call => foldCase call.1 == foldCase part) =
      entryOf? dictionary part := by
    rw [entryOf?, ← Function.comp_def (fun text => foldCase text == foldCase part) Entry.text,
      ← List.findIdx?_map, ← map_fst_patterns, List.findIdx?_map]
    rfl
  rw [hr.get?_eq, ← hfind]
  cases hn : (patterns dictionary).findIdx? fun call => foldCase call.1 == foldCase part with
  | none => rfl
  | some n =>
    obtain ⟨hlt, -, -⟩ := List.findIdx?_eq_some_iff_getElem.mp hn
    have hcall := List.getElem?_eq_getElem hlt
    rw [Option.bind_some, hcall, Option.map_some, snd_of_getElem?_patterns hcall]

theorem meaning?_eq {vocabulary : Vocabulary} {words : WordChars} {found : Match Nat} {entry : Entry}
    {term : Term} (hentry : dictionary.entry? found.payload = some entry)
    (hterm : dictionary.termByKey? entry.canonicalKey = some term) :
    (ofDictionary dictionary vocabulary words).meaning? found = some (entry, term) := by
  simp only [meaning?, ofDictionary, hentry, hterm, Option.bind_eq_bind, Option.bind_some,
    Option.pure_def]

theorem laid_find (annotator : Annotator) (text : Text) : Laid 0 text (annotator.find text) := by
  rw [find, PatternIndex.resolve_find]
  exact laid_leftmostLongest _ _ _ _ _

theorem exists_entry_of_get? {words : WordChars} {part : Text} {n : Nat}
    (h : (PatternIndex.ofList words (patterns dictionary)).get? part = some n) :
    ∃ entry ∈ dictionary.entries, foldCase entry.text = foldCase part := by
  rw [(PatternIndex.registers_ofList words (patterns dictionary)).get?_eq,
    Option.bind_eq_some_iff] at h
  obtain ⟨place, hplace, -⟩ := h
  obtain ⟨hlt, hfold, -⟩ := List.findIdx?_eq_some_iff_getElem.mp hplace
  have hkept := (keepFirst_sublist _).subset (List.getElem_mem hlt)
  have htext := List.mem_map_of_mem (f := Prod.fst) (List.mem_of_mem_filter hkept)
  rw [map_fst_patterns] at htext
  obtain ⟨entry, hentry, he⟩ := List.mem_map.mp htext
  rw [beq_iff_eq, ← he] at hfold
  exact ⟨entry, hentry, hfold⟩

/-- A text has at most one entry, and that one is found. -/
theorem entryOf?_eq_some_iff (h : Dictionary.build source rules = .ok dictionary) {part : Text}
    {n : Nat} : entryOf? dictionary part = some n ↔
      ∃ entry, dictionary.entry? n = some entry ∧ foldCase part = foldCase entry.text := by
  unfold entryOf? Dictionary.entry?
  rw [List.findIdx?_eq_some_iff_getElem]
  constructor
  · rintro ⟨hn, hfold, -⟩
    exact ⟨_, List.getElem?_eq_getElem hn, (beq_iff_eq.mp hfold).symm⟩
  · rintro ⟨entry, hentry, hfold⟩
    obtain ⟨hn, rfl⟩ := List.getElem?_eq_some_iff.mp hentry
    refine ⟨hn, beq_iff_eq.mpr hfold.symm, ?_⟩
    intro k hk hsame
    rw [beq_iff_eq, hfold] at hsame
    have hpairwise := List.pairwise_map.mp (Dictionary.folds_nodup_of_build h)
    exact List.pairwise_iff_getElem.mp hpairwise k n (hk.trans hn) hn hk hsame

theorem exists_termByKey? (h : Dictionary.build source rules = .ok dictionary) {entry : Entry}
    (hentry : entry ∈ dictionary.entries) :
    ∃ term, dictionary.termByKey? entry.canonicalKey = some term := by
  obtain ⟨listed, hlisted, he⟩ := List.mem_map.mp (Dictionary.canonicalKey_mem_of_build h hentry)
  have hsome : (dictionary.termByKey? entry.canonicalKey).isSome :=
    List.find?_isSome.mpr ⟨listed, hlisted, beq_iff_eq.mpr he⟩
  exact Option.isSome_iff_exists.mp hsome

theorem exists_entry_of_mem_find (h : Dictionary.build source rules = .ok dictionary)
    {vocabulary : Vocabulary} {words : WordChars} {text : Text} {found : Match Nat}
    (hfound : found ∈ (ofDictionary dictionary vocabulary words).find text) :
    ∃ entry, dictionary.entry? found.payload = some entry ∧
      foldCase found.text = foldCase entry.text := by
  rw [find, PatternIndex.resolve_find, ofDictionary, get?_patterns h] at hfound
  exact (entryOf?_eq_some_iff h).mp (lookup_of_mem_leftmostLongest hfound)

/-- A match carries an entry, and the entry stands for a canonical term. -/
theorem exists_meaning_of_mem_find {annotator : Annotator}
    (hbuild : Dictionary.build source rules = .ok dictionary) (h : annotator.Made dictionary)
    {text : Text} {found : Match Nat} (hfound : found ∈ annotator.find text) :
    ∃ entry term, dictionary.entry? found.payload = some entry ∧
      dictionary.termByKey? entry.canonicalKey = some term ∧
      annotator.meaning? found = some (entry, term) := by
  obtain ⟨vocabulary, words, rfl⟩ := h.eq_ofDictionary
  obtain ⟨entry, hentry, -⟩ := exists_entry_of_mem_find hbuild hfound
  obtain ⟨term, hterm⟩ := exists_termByKey? hbuild (List.mem_of_getElem? hentry)
  exact ⟨entry, term, hentry, hterm, meaning?_eq hentry hterm⟩

/-- What is found in a text, told by the entries of the dictionary alone: from left to right, at
the first place behind the last match where an entry stands between two boundaries, the longest
such entry. -/
theorem find_eq_leftmostLongest (h : Dictionary.build source rules = .ok dictionary)
    (vocabulary : Vocabulary) (words : WordChars) (text : Text) :
    (ofDictionary dictionary vocabulary words).find text =
      leftmostLongest words (entryOf? dictionary) none 0 text := by
  rw [find, PatternIndex.resolve_find, ofDictionary, get?_patterns h, PatternIndex.words_ofList]

theorem find_eq_leftmostLongest_colliding : ∃ dictionary,
    Dictionary.build Dictionary.collidingSource { suffixes := ["s".toList] } = .ok dictionary ∧
    (ofDictionary dictionary {} {}).find "Katje, kat-s KATS".toList =
      leftmostLongest {} (entryOf? dictionary) none 0 "Katje, kat-s KATS".toList ∧
    ((ofDictionary dictionary {} {}).find "Katje, kat-s KATS".toList).map
      (fun found => (found.text, found.payload, found.start, found.stop)) =
        [("Katje".toList, 2, 0, 5), ("KATS".toList, 3, 13, 17)] := by
  obtain ⟨dictionary, h⟩ : ∃ dictionary,
      Dictionary.build Dictionary.collidingSource { suffixes := ["s".toList] } =
        .ok dictionary := ⟨_, rfl⟩
  refine ⟨dictionary, h, find_eq_leftmostLongest h {} {} _, ?_⟩
  cases h
  decide +kernel

end Gloss.Annotator
