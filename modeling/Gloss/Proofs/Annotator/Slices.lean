import Gloss.Proofs.Annotator.Replacement
import Gloss.Proofs.Markup.Slices

/-! Finding and replacing by byte offsets. Every candidate is cut out of the document by checked
slices, and so is what lies between the chosen matches; no cut traps, and the output is that of the
annotator. -/
namespace Gloss
open Text

namespace PatternIndex
variable {P : Type}

def candidateSlice? (index : PatternIndex P) (document : Text) (start stop node : Nat) :
    Except Trap (Option (Candidate P)) :=
  match index.trie.terminal? node with
  | none => .ok none
  | some ordinal => do
    let ⟨behind, _⟩ ← sliceFrom document stop
    if index.words.isBoundary behind.head? then
      let ⟨part, _⟩ ← slice document start stop
      match index.literals[ordinal]? with
      | none => .error (.index ordinal)
      | some literal => return some ⟨part, literal.payload, start, stop, ordinal⟩
    else return none

/-- The candidates with one start, walked over what follows it. `offset` counts the bytes behind
the start that have led to `node`. -/
def walkSlices (index : PatternIndex P) (document : Text) (start node offset : Nat) :
    Text → Except Trap (List (Candidate P))
  | [] => .ok []
  | c :: rest =>
    match index.trie.walk? node (lower c) with
    | none => .ok []
    | some next => do
      let here ← index.candidateSlice? document start (start + offset + c.utf8Size) next
      return here.toList ++ (← index.walkSlices document start next (offset + c.utf8Size) rest)

def findSlicesFrom (index : PatternIndex P) (document : Text) (previous : Option Char)
    (start : Nat) : Text → Except Trap (List (Candidate P))
  | [] => .ok []
  | c :: rest => do
    let here ←
      if index.words.isBoundary previous then do
        let ⟨behind, _⟩ ← sliceFrom document start
        index.walkSlices document start 0 0 behind
      else .ok []
    return here ++ (← index.findSlicesFrom document (some c) (start + c.utf8Size) rest)

def findSlices (index : PatternIndex P) (document : Text) : Except Trap (List (Candidate P)) :=
  index.findSlicesFrom document none 0 document

variable {index : PatternIndex P} {kept : List (Text × P)}

theorem candidateSlice?_eq (h : Registers index kept) {before part : Text} {node : Nat}
    (hnode : index.trie.walk? 0 (foldCase part) = some node) (behind : Text) :
    index.candidateSlice? (before ++ part ++ behind) (byteLength before)
        (byteLength before + byteLength part) node =
      .ok (index.candidate? node (byteLength before) part behind.head?) := by
  have hpart : IsSlice (before ++ part ++ behind) (byteLength before)
      (byteLength before + byteLength part) part :=
    ⟨before, behind, rfl, rfl, (byteLength_append before part).symm⟩
  have hbehind : IsSlice (before ++ part ++ behind) (byteLength before + byteLength part)
      (byteLength (before ++ part ++ behind)) behind :=
    byteLength_append before part ▸ isSlice_from (before ++ part) behind
  unfold candidateSlice? candidate?
  cases hterminal : index.trie.terminal? node with
  | none => rfl
  | some ordinal =>
    have hstored : index.trie.stored? (foldCase part) = some ordinal := by
      rw [Trie.stored?, hnode, Option.bind_some, hterminal]
    obtain ⟨call, -, -, hliteral⟩ := h.stored_call hstored
    simp only [sliceFrom, slice_eq_ok hbehind, slice_eq_ok hpart, ok_bind, hliteral,
      Option.bind_eq_bind, Option.bind_some]
    split
    · next hb =>
      rw [hb]
      rfl
    · next hb =>
      rw [Bool.not_eq_true] at hb
      rw [hb]
      rfl

theorem walkSlices_eq (h : Registers index kept) (before : Text) {matched : Text} {node : Nat}
    (hnode : index.trie.walk? 0 (foldCase matched) = some node) (rest : Text) :
    index.walkSlices (before ++ matched ++ rest) (byteLength before) node (byteLength matched)
        rest = .ok (index.candidatesFrom (byteLength before) node matched rest) := by
  induction rest generalizing matched node with
  | nil => rfl
  | cons c rest ih =>
    have hstep := walk?_foldCase_concat hnode c
    rw [walkSlices, candidatesFrom]
    cases hnext : index.trie.walk? node (lower c) with
    | none => rfl
    | some next =>
      rw [hnext] at hstep
      have hwhole : before ++ matched ++ c :: rest = before ++ (matched ++ [c]) ++ rest := by simp
      have hlength : byteLength matched + c.utf8Size = byteLength (matched ++ [c]) := by simp
      dsimp only
      rw [hwhole, Nat.add_assoc, hlength, candidateSlice?_eq h hstep, ok_bind, ih hstep, ok_bind]
      rfl

theorem findSlicesFrom_eq (h : Registers index kept) (before rest : Text)
    (previous : Option Char) :
    index.findSlicesFrom (before ++ rest) previous (byteLength before) rest =
      .ok (index.findFrom previous (byteLength before) rest) := by
  induction rest generalizing before previous with
  | nil => rfl
  | cons c rest ih =>
    have hwhole : before ++ c :: rest = before ++ [c] ++ rest := by simp
    have hlength : byteLength before + c.utf8Size = byteLength (before ++ [c]) := by simp
    have hlater := ih (before ++ [c]) (some c)
    rw [← hwhole, ← hlength] at hlater
    rw [findSlicesFrom, findFrom_cons, candidatesAt, hlater]
    split
    · have hroot : index.trie.walk? 0 (foldCase []) = some 0 := rfl
      have hhere := walkSlices_eq h before hroot (c :: rest)
      rw [List.append_nil, byteLength_nil] at hhere
      simp only [sliceFrom_append, ok_bind, hhere]
      rfl
    · rfl

theorem findSlices_eq (h : Registers index kept) (document : Text) :
    index.findSlices document = .ok (index.find document) :=
  findSlicesFrom_eq h [] document none

theorem isSlice_of_mem_find {document : Text} {c : Candidate P} (h : c ∈ index.find document) :
    c.text ≠ [] ∧ IsSlice document c.start c.stop c.text := by
  obtain ⟨before, part, behind, rfl, hpart, -, hhit⟩ := mem_find_iff.mp h
  obtain ⟨-, ordinal, literal, -, -, rfl⟩ := hit?_eq_some_iff.mp hhit
  exact ⟨hpart, before, behind, rfl, rfl, (byteLength_append before part).symm⟩

end PatternIndex

def cursor {P : Type} (offset : Nat) : List (Match P) → Nat
  | [] => offset
  | found :: later => cursor found.stop later

section Laying
variable {P : Type} {offset : Nat} {text done rest : Text} {earlier later : List (Match P)}
  {found : Match P}

/-- What stands behind the cursor: a gap, the first match, and a rest where the others lie. -/
theorem Laid.exists_gap (htext : text = done ++ rest) (hoffset : offset = byteLength done)
    (h : Laid offset rest (found :: later)) : ∃ gap behind, rest = gap ++ found.text ++ behind ∧
      IsSlice text offset found.start gap ∧ IsSlice text found.start found.stop found.text ∧
      text = done ++ gap ++ found.text ++ behind ∧
      found.stop = byteLength (done ++ gap ++ found.text) ∧ Laid found.stop behind later := by
  obtain ⟨gap, behind, rfl, hstart, hstop, hlater⟩ := h
  subst htext hoffset
  rw [← byteLength_append] at hstart
  rw [hstart, ← byteLength_append] at hstop
  refine ⟨gap, behind, rfl, ⟨done, found.text ++ behind, by simp, rfl, hstart⟩,
    ⟨done ++ gap, behind, by simp, hstart, hstop⟩, by simp, hstop, hlater⟩

/-- From the cursor up to a match there is a slice, and so is the match itself. -/
theorem Laid.exists_slice (htext : text = done ++ rest) (hoffset : offset = byteLength done)
    (h : Laid offset rest (earlier ++ found :: later)) :
    (∃ gap, IsSlice text (cursor offset earlier) found.start gap) ∧
      IsSlice text found.start found.stop found.text := by
  induction earlier generalizing offset done rest with
  | nil =>
    obtain ⟨gap, behind, -, hgap, hfound, -⟩ := h.exists_gap htext hoffset
    exact ⟨⟨gap, hgap⟩, hfound⟩
  | cons m earlier ih =>
    obtain ⟨gap, behind, -, -, -, htext, hstop, hlater⟩ := h.exists_gap htext hoffset
    exact ih htext hstop hlater

end Laying

namespace Annotator

/-- Replace matches in a text whose part before the cursor is done. -/
def replaceSlices (annotator : Annotator) (text : Text) (scope : Scope) (cursor : Nat) :
    List (Match Nat) → Except Trap Annotated
  | [] => do
    let ⟨rest, _⟩ ← sliceFrom text cursor
    return ⟨rest, scope, {}⟩
  | found :: later => do
    let ⟨before, _⟩ ← slice text cursor found.start
    let rendered := annotator.render scope found
    let behind ← annotator.replaceSlices text rendered.scope found.stop later
    return append ⟨before, scope, {}⟩ (append rendered behind)

def annotateSlices (annotator : Annotator) (scope : Scope) (text : Text) :
    Except Trap Annotated := do
  let candidates ← annotator.index.findSlices text
  annotator.replaceSlices text scope 0 (Candidate.resolve candidates)

theorem replaceSlices_eq (annotator : Annotator) {text done rest : Text} {offset : Nat}
    {found : List (Match Nat)} (htext : text = done ++ rest) (hoffset : offset = byteLength done)
    (h : Laid offset rest found) (scope : Scope) :
    annotator.replaceSlices text scope offset found =
      .ok (annotator.replaceFrom scope offset rest found) := by
  induction found generalizing done rest offset scope with
  | nil =>
    subst htext hoffset
    rw [replaceSlices, sliceFrom_append]
    rfl
  | cons m later ih =>
    obtain ⟨gap, behind, rfl, hgap, hm, htext, hdone, hlater⟩ := h.exists_gap htext hoffset
    have hstart : m.start = offset + byteLength gap := by
      rw [← hgap.byteLength_add, Nat.add_comm]
    have hstop : m.stop = m.start + byteLength m.text := by
      rw [← hm.byteLength_add, Nat.add_comm]
    rw [replaceSlices, slice_eq_ok hgap, ok_bind, replaceFrom_cons hstart hstop]
    dsimp only
    rw [ih htext hdone hlater, ok_bind]
    rfl

theorem annotateSlices_eq {annotator : Annotator} {kept : List (Text × Nat)}
    (h : annotator.index.Registers kept) (scope : Scope) (text : Text) :
    annotator.annotateSlices scope text = .ok (annotator.annotateWithin scope text) := by
  rw [annotateSlices, PatternIndex.findSlices_eq h, ok_bind]
  exact replaceSlices_eq annotator (List.nil_append text).symm byteLength_nil.symm
    (laid_find annotator text) scope

theorem Made.registers {annotator : Annotator} {dictionary : Dictionary}
    (h : annotator.Made dictionary) : ∃ kept, annotator.index.Registers kept := by
  obtain ⟨vocabulary, words, rfl⟩ := h.eq_ofDictionary
  exact ⟨_, PatternIndex.registers_ofList words (patterns dictionary)⟩

/-- No slice traps. Candidates stand between boundaries of characters, and so does what is copied in
front of each match, from the cursor on; finding, replacing and removing markup by checked slices
give what they give without the checks. -/
theorem slices_never_trap {annotator : Annotator} {dictionary : Dictionary}
    (h : annotator.Made dictionary) (scope : Scope) (text : Text) :
    (∀ c ∈ annotator.index.find text, c.start < c.stop ∧ c.stop ≤ byteLength text ∧
      IsCharBoundary text c.start ∧ IsCharBoundary text c.stop) ∧
    (∀ earlier found later, annotator.find text = earlier ++ found :: later →
      cursor 0 earlier ≤ found.start ∧ found.start ≤ found.stop ∧ found.stop ≤ byteLength text ∧
      IsCharBoundary text (cursor 0 earlier) ∧ IsCharBoundary text found.start ∧
      IsCharBoundary text found.stop) ∧
    annotator.index.findSlices text = .ok (annotator.index.find text) ∧
    annotator.annotateSlices scope text = .ok (annotator.annotateWithin scope text) ∧
    ∀ vocabulary html, Markup.stripSlices vocabulary html = .ok (Markup.strip vocabulary html) := by
  obtain ⟨kept, hkept⟩ := h.registers
  refine ⟨fun c hc => ?_, fun earlier found later hfound => ?_,
    PatternIndex.findSlices_eq hkept text, annotateSlices_eq hkept scope text,
    Markup.stripSlices_eq⟩
  · obtain ⟨hne, hslice⟩ := PatternIndex.isSlice_of_mem_find hc
    have hlt : c.start < c.stop := by
      rw [← hslice.byteLength_add]
      exact Nat.lt_add_of_pos_left (byteLength_pos hne)
    exact ⟨hlt, hslice.isCharBoundary.2.le, hslice.isCharBoundary⟩
  · have hlaid := hfound ▸ laid_find annotator text
    obtain ⟨⟨gap, hgap⟩, hslice⟩ :=
      hlaid.exists_slice (List.nil_append text).symm byteLength_nil.symm
    exact ⟨hgap.le, hslice.le, hslice.isCharBoundary.2.le, hgap.isCharBoundary.1,
      hslice.isCharBoundary⟩

def accentedSource : Source where
  definitions :=
    [{ term := some "één".toList, definition := some "getal".toList },
     { term := some "𝛼".toList, definition := some "fout".toList }]

theorem slices_never_trap_accented : ∃ dictionary,
    Dictionary.build accentedSource { enabled := false } = .ok dictionary ∧
    (withDefaults dictionary).Made dictionary ∧
    ((withDefaults dictionary).find "€: 𝛼 in ÉÉN’".toList).map
      (fun found => (found.start, found.stop)) = [(5, 9), (13, 18)] ∧
    (∀ earlier found later,
      (withDefaults dictionary).find "€: 𝛼 in ÉÉN’".toList = earlier ++ found :: later →
        cursor 0 earlier ≤ found.start) ∧
    (withDefaults dictionary).annotateSlices {} "€: 𝛼 in ÉÉN’".toList =
      .ok ((withDefaults dictionary).annotateWithin {} "€: 𝛼 in ÉÉN’".toList) ∧
    Markup.stripSlices {} "é<span class=\"aiv-definition-text\">€<span>𝛼</span></span>’".toList =
      .ok "é’".toList := by
  obtain ⟨dictionary, hbuild⟩ : ∃ dictionary,
      Dictionary.build accentedSource { enabled := false } = .ok dictionary := ⟨_, rfl⟩
  have hmade : (withDefaults dictionary).Made dictionary := .inr rfl
  obtain ⟨-, hcursor, -, hannotate, hstrip⟩ :=
    slices_never_trap hmade {} "€: 𝛼 in ÉÉN’".toList
  refine ⟨dictionary, hbuild, hmade, ?_, ?_, hannotate, (hstrip {} _).trans ?_⟩
  · cases hbuild
    decide +kernel
  · intro earlier found later hfound
    exact (hcursor earlier found later hfound).1
  · exact congrArg Except.ok (by decide +kernel)

end Annotator
end Gloss
