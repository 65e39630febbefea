import Gloss.Proofs.Pattern.Registration
import Mathlib.Data.List.Pairwise
import Mathlib.Data.Option.Basic

/-! Where a document has the texts of an index. A candidate is a part between two boundaries that
the index knows, and candidates come by start and then by stop. -/
namespace Gloss
open Text

namespace Candidate
variable {P : Type}

def At (c : Candidate P) (before part : Text) : Prop :=
  c.start = byteLength before ∧ c.stop = byteLength (before ++ part)

def Before (a b : Candidate P) : Prop :=
  a.start < b.start ∨ a.start = b.start ∧ a.stop < b.stop

end Candidate

theorem getLast?_cons_or (c : Char) (before : Text) (previous : Option Char) :
    (c :: before).getLast?.or previous = before.getLast?.or (some c) := by
  rw [List.getLast?_cons]
  cases before.getLast? <;> rfl

namespace PatternIndex
variable {P : Type} (index : PatternIndex P)

def hit? (start : Nat) (part : Text) (next : Option Char) : Option (Candidate P) :=
  (index.trie.walk? 0 (foldCase part)).bind fun node => index.candidate? node start part next

def candidatesAt (previous : Option Char) (start : Nat) (rest : Text) : List (Candidate P) :=
  if index.words.isBoundary previous then index.candidatesFrom start 0 [] rest else []

variable {index}

theorem findFrom_cons (previous : Option Char) (start : Nat) (c : Char) (rest : Text) :
    index.findFrom previous start (c :: rest) =
      index.candidatesAt previous start (c :: rest) ++
        index.findFrom (some c) (start + c.utf8Size) rest := rfl

theorem hit?_eq_some_iff {start : Nat} {part : Text} {next : Option Char} {c : Candidate P} :
    index.hit? start part next = some c ↔
      index.words.isBoundary next = true ∧ ∃ ordinal literal,
        index.trie.stored? (foldCase part) = some ordinal ∧
        index.literals[ordinal]? = some literal ∧
        c = ⟨part, literal.payload, start, start + byteLength part, ordinal⟩ := by
  simp only [hit?, candidate?, Trie.stored?, Option.bind_eq_bind, Option.bind_eq_some_iff,
    Option.guard_eq_some', Option.pure_def, Option.some.injEq]
  constructor
  · rintro ⟨node, hw, ordinal, ht, literal, hl, _, hb, rfl⟩
    exact ⟨hb, ordinal, literal, ⟨node, hw, ht⟩, hl, rfl⟩
  · rintro ⟨hb, ordinal, literal, ⟨node, hw, ht⟩, hl, rfl⟩
    exact ⟨node, hw, ordinal, ht, literal, hl, (), hb, rfl⟩

theorem get?_eq_some_iff {part : Text} {payload : P} :
    index.get? part = some payload ↔ ∃ ordinal literal,
      index.trie.stored? (foldCase part) = some ordinal ∧
      index.literals[ordinal]? = some literal ∧ literal.payload = payload := by
  simp only [get?, Trie.stored?, Option.bind_eq_bind, Option.bind_eq_some_iff, Option.pure_def,
    Option.some.injEq]
  constructor
  · rintro ⟨node, hw, ordinal, ht, literal, hl, rfl⟩
    exact ⟨ordinal, literal, ⟨node, hw, ht⟩, hl, rfl⟩
  · rintro ⟨ordinal, literal, ⟨node, hw, ht⟩, hl, rfl⟩
    exact ⟨node, hw, ordinal, ht, literal, hl, rfl⟩

/-- A walk that has failed once fails for every longer part. -/
private theorem hit?_eq_none {start : Nat} {part : Text} {next : Option Char} (more : Text)
    (h : index.trie.walk? 0 (foldCase part) = none) :
    index.hit? start (part ++ more) next = none := by
  rw [hit?, foldCase_append, Trie.walk?_append, h]
  rfl

theorem walk?_foldCase_concat {node : Nat} {part : Text}
    (h : index.trie.walk? 0 (foldCase part) = some node) (c : Char) :
    index.trie.walk? 0 (foldCase (part ++ [c])) = index.trie.walk? node (lower c) := by
  rw [foldCase_append, Trie.walk?_append, h]
  simp

/-- The candidates with one start are the hits among the leading parts, the shortest first. -/
theorem candidatesFrom_eq_filterMap {start node : Nat} {matched : Text}
    (h : index.trie.walk? 0 (foldCase matched) = some node) (rest : Text) :
    index.candidatesFrom start node matched rest =
      (List.range rest.length).filterMap fun k =>
        index.hit? start (matched ++ rest.take (k + 1)) (rest.drop (k + 1)).head? := by
  induction rest generalizing node matched with
  | nil => rfl
  | cons c rest ih =>
    have hstep := walk?_foldCase_concat h c
    rw [candidatesFrom]
    cases hw : index.trie.walk? node (lower c) with
    | none =>
      refine (List.filterMap_eq_nil_iff.mpr fun k _ => ?_).symm
      rw [List.take_succ_cons, List.append_cons]
      exact hit?_eq_none _ (hstep.trans hw)
    | some next =>
      have hnext := hstep.trans hw
      have hfirst : index.hit? start (matched ++ [c]) rest.head? =
          index.candidate? next start (matched ++ [c]) rest.head? := by
        rw [hit?, hnext, Option.bind_some]
      simp only [List.length_cons, List.range_succ_eq_map, List.filterMap_cons,
        List.filterMap_map, Function.comp_def, List.take_succ_cons, List.drop_succ_cons,
        List.take_zero, List.drop_zero, hfirst, ih hnext, List.append_assoc,
        List.singleton_append]
      cases index.candidate? next start (matched ++ [c]) rest.head? <;> rfl

theorem candidatesFrom_root (start : Nat) (rest : Text) :
    index.candidatesFrom start 0 [] rest =
      (List.range rest.length).filterMap fun k =>
        index.hit? start (rest.take (k + 1)) (rest.drop (k + 1)).head? :=
  candidatesFrom_eq_filterMap rfl rest

theorem mem_candidatesFrom_iff {start : Nat} {rest : Text} {c : Candidate P} :
    c ∈ index.candidatesFrom start 0 [] rest ↔
      ∃ part behind, rest = part ++ behind ∧ part ≠ [] ∧
        index.hit? start part behind.head? = some c := by
  rw [candidatesFrom_root, List.mem_filterMap]
  constructor
  · rintro ⟨k, hk, hc⟩
    refine ⟨_, _, (List.take_append_drop (k + 1) rest).symm, ?_, hc⟩
    have hlt := List.mem_range.mp hk
    exact List.ne_nil_of_length_pos (by rw [List.length_take]; omega)
  · rintro ⟨part, behind, rfl, hpart, hc⟩
    have hpos := List.length_pos_of_ne_nil hpart
    refine ⟨part.length - 1, List.mem_range.mpr (by rw [List.length_append]; omega), ?_⟩
    rwa [Nat.sub_add_cancel hpos, List.take_left, List.drop_left]

theorem mem_candidatesAt_iff {previous : Option Char} {start : Nat} {rest : Text}
    {c : Candidate P} :
    c ∈ index.candidatesAt previous start rest ↔
      index.words.isBoundary previous = true ∧ ∃ part behind, rest = part ++ behind ∧ part ≠ [] ∧
        index.hit? start part behind.head? = some c := by
  unfold candidatesAt
  split
  · next hb => rw [mem_candidatesFrom_iff, and_iff_right hb]
  · next hb => simp [hb]

/-- A candidate lies between two boundaries, wherever the search began. -/
theorem mem_findFrom_iff {previous : Option Char} {start : Nat} {rest : Text}
    {c : Candidate P} :
    c ∈ index.findFrom previous start rest ↔
      ∃ before part behind, rest = before ++ part ++ behind ∧ part ≠ [] ∧
        index.words.isBoundary (before.getLast?.or previous) = true ∧
        index.hit? (start + byteLength before) part behind.head? = some c := by
  induction rest generalizing previous start with
  | nil =>
    simp only [findFrom, List.not_mem_nil, false_iff]
    rintro ⟨before, part, behind, he, hpart, -⟩
    simp only [List.nil_eq, List.append_eq_nil_iff] at he
    exact hpart he.1.2
  | cons ch rest ih =>
    rw [findFrom_cons, List.mem_append, ih, mem_candidatesAt_iff]
    constructor
    · rintro (⟨hb, part, behind, he, hpart, hc⟩ | ⟨before, part, behind, rfl, hpart, hb, hc⟩)
      · exact ⟨[], part, behind, he, hpart, hb, hc⟩
      · refine ⟨ch :: before, part, behind, rfl, hpart, ?_, ?_⟩
        · rwa [getLast?_cons_or]
        · rwa [byteLength_cons, ← Nat.add_assoc]
    · rintro ⟨before, part, behind, he, hpart, hb, hc⟩
      cases before with
      | nil => exact .inl ⟨by simpa using hb, part, behind, he, hpart, hc⟩
      | cons first before =>
        obtain ⟨rfl, rfl⟩ := List.cons.inj he
        refine .inr ⟨before, part, behind, rfl, hpart, ?_, ?_⟩
        · rwa [getLast?_cons_or] at hb
        · rwa [byteLength_cons, ← Nat.add_assoc] at hc

theorem mem_find_iff {document : Text} {c : Candidate P} :
    c ∈ index.find document ↔
      ∃ before part behind, document = before ++ part ++ behind ∧ part ≠ [] ∧
        index.words.isBoundary before.getLast? = true ∧
        index.hit? (byteLength before) part behind.head? = some c := by
  rw [find, mem_findFrom_iff]
  simp only [Option.or_none, Nat.zero_add]

/-- The start and the stop of a candidate determine the part it stands for. -/
theorem mem_find_at_iff {before part behind : Text} (hpart : part ≠ []) {c : Candidate P} :
    c ∈ index.find (before ++ part ++ behind) ∧ c.At before part ↔
      index.words.isBoundary before.getLast? = true ∧
        index.hit? (byteLength before) part behind.head? = some c := by
  rw [mem_find_iff]
  constructor
  · rintro ⟨⟨before', part', behind', he, hpart', hb, hc⟩, hstart, hstop⟩
    obtain ⟨-, ordinal, literal, -, -, rfl⟩ := hit?_eq_some_iff.mp hc
    rw [List.append_assoc, List.append_assoc] at he
    obtain ⟨rfl, hrest⟩ := append_inj_of_byteLength he hstart.symm
    rw [byteLength_append] at hstop
    have hlen : byteLength part = byteLength part' := (Nat.add_left_cancel hstop).symm
    obtain ⟨rfl, rfl⟩ := append_inj_of_byteLength hrest hlen
    exact ⟨hb, hc⟩
  · rintro ⟨hb, hc⟩
    refine ⟨⟨before, part, behind, rfl, hpart, hb, hc⟩, ?_⟩
    obtain ⟨-, ordinal, literal, -, -, rfl⟩ := hit?_eq_some_iff.mp hc
    exact ⟨rfl, (byteLength_append _ _).symm⟩

theorem start_of_mem_candidatesAt {previous : Option Char} {start : Nat} {rest : Text}
    {c : Candidate P} (h : c ∈ index.candidatesAt previous start rest) :
    c.start = start ∧ start < c.stop := by
  obtain ⟨-, part, behind, -, hpart, hc⟩ := mem_candidatesAt_iff.mp h
  obtain ⟨-, ordinal, literal, -, -, rfl⟩ := hit?_eq_some_iff.mp hc
  exact ⟨rfl, Nat.lt_add_of_pos_right (byteLength_pos hpart)⟩

theorem le_start_of_mem_findFrom {previous : Option Char} {start : Nat} {rest : Text}
    {c : Candidate P} (h : c ∈ index.findFrom previous start rest) :
    start ≤ c.start ∧ c.start < c.stop := by
  obtain ⟨before, part, behind, -, hpart, -, hc⟩ := mem_findFrom_iff.mp h
  obtain ⟨-, ordinal, literal, -, -, rfl⟩ := hit?_eq_some_iff.mp hc
  exact ⟨Nat.le_add_right _ _, Nat.lt_add_of_pos_right (byteLength_pos hpart)⟩

private theorem byteLength_take_lt {rest : Text} {k l : Nat} (hk : k < l)
    (hl : l < rest.length) : byteLength (rest.take (k + 1)) < byteLength (rest.take (l + 1)) := by
  have hsplit : rest.take (l + 1) = rest.take (k + 1) ++ (rest.take (l + 1)).drop (k + 1) := by
    conv_lhs => rw [← List.take_append_drop (k + 1) (rest.take (l + 1)), List.take_take]
    rw [Nat.min_eq_left (by omega)]
  have hpos : 0 < byteLength ((rest.take (l + 1)).drop (k + 1)) := by
    refine byteLength_pos (List.ne_nil_of_length_pos ?_)
    rw [List.length_drop, List.length_take]
    omega
  rw [hsplit, byteLength_append]
  omega

theorem candidatesAt_pairwise (previous : Option Char) (start : Nat) (rest : Text) :
    (index.candidatesAt previous start rest).Pairwise
      fun a b => a.start = b.start ∧ a.stop < b.stop := by
  unfold candidatesAt
  split
  · rw [candidatesFrom_root, List.pairwise_filterMap]
    refine List.pairwise_lt_range.imp_of_mem ?_
    intro k l _ hl hlt a ha b hb
    obtain ⟨-, ordinal, literal, -, -, rfl⟩ := hit?_eq_some_iff.mp ha
    obtain ⟨-, ordinal', literal', -, -, rfl⟩ := hit?_eq_some_iff.mp hb
    exact ⟨rfl, Nat.add_lt_add_left (byteLength_take_lt hlt (List.mem_range.mp hl)) start⟩
  · exact List.Pairwise.nil

theorem start_lt_of_mem {previous : Option Char} {start : Nat} {c : Char} {rest : Text}
    {a b : Candidate P} (ha : a ∈ index.candidatesAt previous start (c :: rest))
    (hb : b ∈ index.findFrom (some c) (start + c.utf8Size) rest) : a.start < b.start := by
  have := (start_of_mem_candidatesAt ha).1
  have := (le_start_of_mem_findFrom hb).1
  have := Char.utf8Size_pos c
  omega

theorem findFrom_pairwise (previous : Option Char) (start : Nat) (rest : Text) :
    (index.findFrom previous start rest).Pairwise Candidate.Before := by
  induction rest generalizing previous start with
  | nil => exact List.Pairwise.nil
  | cons ch rest ih =>
    rw [findFrom_cons, List.pairwise_append]
    refine ⟨(candidatesAt_pairwise previous start (ch :: rest)).imp .inr, ih _ _, ?_⟩
    intro a ha b hb
    exact .inl (start_lt_of_mem ha hb)

/-- A part has a candidate when it stands between boundaries and the index knows it. -/
theorem exists_candidate_iff {before part behind : Text} (hpart : part ≠ []) :
    (∃ c ∈ index.find (before ++ part ++ behind), c.At before part) ↔
      index.words.isBoundary before.getLast? = true ∧
        index.words.isBoundary behind.head? = true ∧
        ∃ payload, index.get? part = some payload := by
  simp only [mem_find_at_iff hpart, hit?_eq_some_iff, get?_eq_some_iff]
  constructor
  · rintro ⟨c, hb, hnext, ordinal, literal, hs, hl, -⟩
    exact ⟨hb, hnext, literal.payload, ordinal, literal, hs, hl, rfl⟩
  · rintro ⟨hb, hnext, payload, ordinal, literal, hs, hl, -⟩
    exact ⟨_, hb, hnext, ordinal, literal, hs, hl, rfl⟩

/-- The search is sound, complete and ordered. Every candidate is a part of the document; a part
has a candidate exactly between boundaries and when the index knows it, and then only one. Its
ordinal counts the calls accepted before the one that registered its text. -/
theorem find_sound_complete_ordered (words : WordChars) (calls : List (Text × P))
    (document : Text) :
    let index := ofList words calls
    (index.find document).Pairwise Candidate.Before ∧
    (∀ c ∈ index.find document, ∃ before part behind,
      document = before ++ part ++ behind ∧ part ≠ [] ∧ c.At before part) ∧
    ∀ before part behind, document = before ++ part ++ behind → part ≠ [] →
      ((∃ c ∈ index.find document, c.At before part) ↔
        words.isBoundary before.getLast? = true ∧ words.isBoundary behind.head? = true ∧
          ∃ payload, index.get? part = some payload) ∧
      ∀ c ∈ index.find document, c.At before part →
        (∀ d ∈ index.find document, d.At before part → d = c) ∧
        index.get? part = some c.payload ∧ c.text = part ∧
        ∃ earlier key later, calls = earlier ++ (key, c.payload) :: later ∧
          ((ofList words earlier).add key c.payload).2 = true ∧
          c.ordinal = successes { words } earlier ∧
          index.originalText? c.ordinal = some key ∧ foldCase key = foldCase part := by
  intro index
  have hwords : index.words = words := words_ofList words calls
  have hr : Registers index (registered calls) := registers_ofList words calls
  refine ⟨findFrom_pairwise none 0 document, ?_, ?_⟩
  · intro c hc
    obtain ⟨before, part, behind, rfl, hpart, hb, hhit⟩ := mem_find_iff.mp hc
    exact ⟨before, part, behind, rfl, hpart, ((mem_find_at_iff hpart).mpr ⟨hb, hhit⟩).2⟩
  · rintro before part behind rfl hpart
    refine ⟨hwords ▸ exists_candidate_iff hpart, ?_⟩
    intro c hc hat
    obtain ⟨hb, hhit⟩ := (mem_find_at_iff hpart).mp ⟨hc, hat⟩
    have hunique (d : Candidate P) (hd : d ∈ index.find (before ++ part ++ behind))
        (hdat : d.At before part) : d = c :=
      Option.some.inj (((mem_find_at_iff hpart).mp ⟨hd, hdat⟩).2.symm.trans hhit)
    obtain ⟨-, ordinal, literal, hs, hl, rfl⟩ := hit?_eq_some_iff.mp hhit
    obtain ⟨⟨key, payload⟩, hkept, hfold, hlit⟩ := hr.stored_call hs
    cases hl.symm.trans hlit
    obtain ⟨earlier, later, rfl, hn, haccepts⟩ := registered_origin hkept
    refine ⟨hunique, get?_eq_some_iff.mpr ⟨ordinal, _, hs, hl, rfl⟩, rfl, earlier, key, later, rfl,
      (add_ofList_iff words earlier key payload).mpr haccepts, ?_, ?_, hfold⟩
    · rw [successes_new, hn]
    · simp only [originalText?, hl, Option.map_some]

example : ((ofList {} [(['i'], 0), (['i', '\u0307', 's'], 1)]).find ['İ', 's', ' ', 'i']).map
    (fun c => (c.start, c.stop, c.ordinal)) = [(0, 3, 1), (4, 5, 0)] := by
  decide +kernel

end PatternIndex
end Gloss
