import Gloss.Pattern.Cover
import Gloss.Proofs.Pattern.Candidates

/-! Choosing among the candidates of a document, told without candidates: go to the first place
where something known begins, take the longest there, and go on behind it. -/
namespace Gloss
open Text
variable {P : Type}

/-- The longest leading part of a text that is known and ends on a boundary, by one less than its
length, with what it is known for. -/
def longest? (words : WordChars) (lookup : Text → Option P) (text : Text) : Option (Nat × P) :=
  (List.range text.length).reverse.findSome? fun k =>
    if words.isBoundary (text.drop (k + 1)).head? then (lookup (text.take (k + 1))).map (k, ·)
    else none

/-- The matches in a text that starts at `offset` behind the character `previous`. -/
def leftmostLongest (words : WordChars) (lookup : Text → Option P) (previous : Option Char)
    (offset : Nat) : Text → List (Match P)
  | [] => []
  | c :: rest =>
    match if words.isBoundary previous then longest? words lookup (c :: rest) else none with
    | none => leftmostLongest words lookup (some c) (offset + c.utf8Size) rest
    | some (k, payload) =>
      let part := c :: rest.take k
      ⟨part, payload, offset, offset + byteLength part⟩ ::
        leftmostLongest words lookup part.getLast? (offset + byteLength part) (rest.drop k)
termination_by text => text.length
decreasing_by
  · exact Nat.lt_succ_self rest.length
  · rw [List.length_drop, List.length_cons]
    omega

/-- The matches lie in a text that starts at `offset`, one behind the other. -/
def Laid (offset : Nat) (text : Text) : List (Match P) → Prop
  | [] => True
  | found :: later => ∃ before behind, text = before ++ found.text ++ behind ∧
      found.start = offset + byteLength before ∧
      found.stop = found.start + byteLength found.text ∧ Laid found.stop behind later

theorem Laid.cons {offset : Nat} {c : Char} {text : Text} {l : List (Match P)}
    (h : Laid (offset + c.utf8Size) text l) : Laid offset (c :: text) l := by
  cases l with
  | nil => trivial
  | cons found later =>
    obtain ⟨before, behind, rfl, hstart, hstop, hlater⟩ := h
    refine ⟨c :: before, behind, rfl, ?_, hstop, hlater⟩
    rw [hstart, byteLength_cons, Nat.add_assoc]

theorem Laid.infix_of_mem {offset : Nat} {text : Text} {l : List (Match P)} (h : Laid offset text l)
    {found : Match P} (hfound : found ∈ l) : found.text <:+: text := by
  induction l generalizing offset text with
  | nil => cases hfound
  | cons first later ih =>
    obtain ⟨before, behind, rfl, -, -, hlater⟩ := h
    rcases List.mem_cons.mp hfound with rfl | hfound
    · exact List.infix_append before found.text behind
    · exact (ih hlater hfound).trans (List.suffix_append _ _).isInfix

theorem laid_leftmostLongest (words : WordChars) (lookup : Text → Option P)
    (previous : Option Char) (offset : Nat) (text : Text) :
    Laid offset text (leftmostLongest words lookup previous offset text) := by
  induction previous, offset, text using leftmostLongest.induct words lookup with
  | case1 previous offset =>
    rw [leftmostLongest]
    trivial
  | case2 previous offset c rest hnone ih =>
    rw [dite_eq_ite] at hnone
    rw [leftmostLongest, hnone]
    exact ih.cons
  | case3 previous offset c rest k payload hsome part =>
    rename_i ih
    rw [dite_eq_ite] at hsome
    rw [leftmostLongest, hsome]
    refine ⟨[], rest.drop k, ?_, rfl, rfl, ih⟩
    rw [List.nil_append, List.cons_append, List.take_append_drop]

theorem longest?_eq_some {words : WordChars} {lookup : Text → Option P} {text : Text} {k : Nat}
    {payload : P} (h : longest? words lookup text = some (k, payload)) :
    k < text.length ∧ lookup (text.take (k + 1)) = some payload := by
  obtain ⟨l, hmem, hl⟩ := List.exists_of_findSome?_eq_some h
  have hlt := List.mem_range.mp (List.mem_reverse.mp hmem)
  split at hl
  · obtain ⟨known, hknown, he⟩ := Option.map_eq_some_iff.mp hl
    obtain ⟨rfl, rfl⟩ := Prod.mk.inj he
    exact ⟨hlt, hknown⟩
  · cases hl

theorem lookup_of_mem_leftmostLongest {words : WordChars} {lookup : Text → Option P}
    {previous : Option Char} {offset : Nat} {text : Text} {found : Match P}
    (h : found ∈ leftmostLongest words lookup previous offset text) :
    lookup found.text = some found.payload := by
  induction previous, offset, text using leftmostLongest.induct words lookup with
  | case1 previous offset => simp [leftmostLongest] at h
  | case2 previous offset c rest hnone ih =>
    rw [dite_eq_ite] at hnone
    rw [leftmostLongest, hnone] at h
    exact ih h
  | case3 previous offset c rest k payload hsome part =>
    rename_i ih
    rw [dite_eq_ite] at hsome
    rw [leftmostLongest, hsome] at h
    rcases List.mem_cons.mp h with rfl | h
    · rw [Option.ite_none_right_eq_some] at hsome
      exact (longest?_eq_some hsome.2).2
    · exact ih h

def Match.mapPayload {Q : Type} (f : P → Q) (found : Match P) : Match Q :=
  ⟨found.text, f found.payload, found.start, found.stop⟩

section Payload
variable {Q : Type} (f : P → Q) (words : WordChars) (lookup : Text → Option P)

theorem longest?_map (text : Text) :
    longest? words (fun part => (lookup part).map f) text =
      (longest? words lookup text).map (Prod.map id f) := by
  rw [longest?, longest?, List.map_findSome?]
  congr 1
  funext k
  rw [Function.comp_apply, apply_ite (Option.map (Prod.map id f)), Option.map_map, Option.map_map]
  rfl

/-- What a search knows the parts for does not change where they are found. -/
theorem leftmostLongest_map (previous : Option Char) (offset : Nat) (text : Text) :
    leftmostLongest words (fun part => (lookup part).map f) previous offset text =
      (leftmostLongest words lookup previous offset text).map (Match.mapPayload f) := by
  have hsearch (text : Text) (b : Bool) :
      (if b then longest? words (fun part => (lookup part).map f) text else none) =
        (if b then longest? words lookup text else none).map (Prod.map id f) := by
    rw [longest?_map, apply_ite (Option.map (Prod.map id f)), Option.map_none]
  induction previous, offset, text using leftmostLongest.induct words lookup with
  | case1 previous offset => simp [leftmostLongest]
  | case2 previous offset c rest hnone ih =>
    rw [dite_eq_ite] at hnone
    rw [leftmostLongest, leftmostLongest, hsearch, hnone]
    exact ih
  | case3 previous offset c rest k payload hsome part =>
    rename_i ih
    rw [dite_eq_ite] at hsome
    rw [leftmostLongest, leftmostLongest, hsearch, hsome]
    exact congrArg (List.cons _) ih

end Payload

namespace Candidate

theorem mem_insertOrdered {a b : Candidate P} {l : List (Candidate P)} :
    b ∈ insertOrdered a l ↔ b = a ∨ b ∈ l := by
  induction l with
  | nil => simp [insertOrdered]
  | cons c l ih =>
    unfold insertOrdered
    split
    · simp
    · simp only [List.mem_cons, ih]
      exact or_left_comm

theorem mem_arrange {a : Candidate P} {l : List (Candidate P)} : a ∈ arrange l ↔ a ∈ l := by
  induction l with
  | nil => rfl
  | cons b l ih => rw [arrange, List.foldr_cons, ← arrange, mem_insertOrdered, ih, List.mem_cons]

private theorem insertOrdered_behind {a : Candidate P} {l : List (Candidate P)}
    (h : ∀ b ∈ l, a.precedes b = false) (rest : List (Candidate P)) :
    insertOrdered a (l ++ rest) = l ++ insertOrdered a rest := by
  induction l with
  | nil => rfl
  | cons b l ih =>
    rw [List.cons_append, insertOrdered, h b List.mem_cons_self, if_neg Bool.false_ne_true,
      ih fun c hc => h c (List.mem_cons_of_mem b hc)]
    rfl

private theorem insertOrdered_before {a : Candidate P} {l : List (Candidate P)}
    (h : ∀ b ∈ l, a.precedes b = true) : insertOrdered a l = a :: l := by
  cases l with
  | nil => rfl
  | cons b l => rw [insertOrdered, if_pos (h b List.mem_cons_self)]

theorem precedes_of_start {a b : Candidate P} (h : a.start < b.start) : a.precedes b = true := by
  simp [precedes, Nat.ne_of_lt h, h]

theorem not_precedes_of_shorter {a b : Candidate P} (hstart : a.start = b.start)
    (ha : a.start < a.stop) (hstop : a.stop < b.stop) : a.precedes b = false := by
  have hlength : a.length < b.length := by
    unfold length
    omega
  simp [precedes, hstart, Nat.ne_of_lt hlength, Nat.le_of_lt hlength]

/-- Candidates with one start, the shortest first, are turned round and stay in front. -/
theorem arrange_append {group l : List (Candidate P)}
    (hgroup : group.Pairwise fun a b => a.start = b.start ∧ a.stop < b.stop)
    (hpos : ∀ a ∈ group, a.start < a.stop) (hl : ∀ a ∈ group, ∀ b ∈ l, a.start < b.start) :
    arrange (group ++ l) = group.reverse ++ arrange l := by
  induction group with
  | nil => rfl
  | cons a group ih =>
    obtain ⟨hfirst, hgroup⟩ := List.pairwise_cons.mp hgroup
    have hlonger (b : Candidate P) (hb : b ∈ group.reverse) : a.precedes b = false := by
      obtain ⟨hstart, hstop⟩ := hfirst b (List.mem_reverse.mp hb)
      exact not_precedes_of_shorter hstart (hpos a List.mem_cons_self) hstop
    have hlater (b : Candidate P) (hb : b ∈ arrange l) : a.precedes b = true :=
      precedes_of_start (hl a List.mem_cons_self b (mem_arrange.mp hb))
    rw [List.cons_append, arrange, List.foldr_cons, ← arrange,
      ih hgroup (fun b hb => hpos b (List.mem_cons_of_mem a hb))
        fun b hb => hl b (List.mem_cons_of_mem a hb),
      insertOrdered_behind hlonger, insertOrdered_before hlater]
    simp

/-- What starts inside the last choice is passed over. -/
theorem sweep_append_covered {covered : Nat} {group : List (Candidate P)}
    (h : ∀ a ∈ group, a.start < covered) (l : List (Candidate P)) :
    sweep covered (group ++ l) = sweep covered l := by
  induction group with
  | nil => rfl
  | cons a group ih =>
    rw [List.cons_append, sweep, if_pos (h a List.mem_cons_self),
      ih fun b hb => h b (List.mem_cons_of_mem a hb)]

end Candidate

namespace PatternIndex
open Candidate
variable {index : PatternIndex P}

theorem arrange_findFrom (previous : Option Char) (start : Nat) (c : Char) (rest : Text) :
    arrange (index.findFrom previous start (c :: rest)) =
      (index.candidatesAt previous start (c :: rest)).reverse ++
        arrange (index.findFrom (some c) (start + c.utf8Size) rest) := by
  rw [findFrom_cons]
  refine arrange_append (candidatesAt_pairwise previous start (c :: rest)) ?_ ?_
  · intro a ha
    obtain ⟨rfl, hstop⟩ := start_of_mem_candidatesAt ha
    exact hstop
  · exact fun a ha b hb => start_lt_of_mem ha hb

private theorem map_toMatch_hit? (start : Nat) (part : Text) (next : Option Char) :
    (index.hit? start part next).map toMatch =
      if index.words.isBoundary next then
        (index.get? part).map (⟨part, ·, start, start + byteLength part⟩)
      else none := by
  refine Option.ext fun chosen => ?_
  simp only [Option.map_eq_some_iff, hit?_eq_some_iff, Option.ite_none_right_eq_some,
    get?_eq_some_iff]
  constructor
  · rintro ⟨_, ⟨hb, ordinal, literal, hs, hl, rfl⟩, rfl⟩
    exact ⟨hb, literal.payload, ⟨ordinal, literal, hs, hl, rfl⟩, rfl⟩
  · rintro ⟨hb, _, ⟨ordinal, literal, hs, hl, rfl⟩, rfl⟩
    exact ⟨_, ⟨hb, ordinal, literal, hs, hl, rfl⟩, rfl⟩

/-- The last of the candidates with one start is the longest known part. -/
theorem getLast?_candidatesFrom (start : Nat) (text : Text) :
    (index.candidatesFrom start 0 [] text).getLast?.map toMatch =
      (longest? index.words index.get? text).map fun found =>
        ⟨text.take (found.1 + 1), found.2, start,
          start + byteLength (text.take (found.1 + 1))⟩ := by
  rw [candidatesFrom_root, List.getLast?_filterMap, longest?, List.map_findSome?,
    List.map_findSome?]
  congr 1
  funext k
  rw [Function.comp_apply, Function.comp_apply, map_toMatch_hit?]
  split
  · rw [Option.map_map]
    rfl
  · rfl

theorem getLast?_candidatesAt (previous : Option Char) (start : Nat) (text : Text) :
    (index.candidatesAt previous start text).getLast?.map toMatch =
      (if index.words.isBoundary previous then longest? index.words index.get? text
        else none).map fun found =>
          ⟨text.take (found.1 + 1), found.2, start,
            start + byteLength (text.take (found.1 + 1))⟩ := by
  unfold candidatesAt
  split
  · exact getLast?_candidatesFrom start text
  · rfl

private theorem start_lt_of_mem_candidatesAt {previous : Option Char} {start : Nat} {c : Char}
    {rest more : Text} {a : Candidate P}
    (h : a ∈ (index.candidatesAt previous start (c :: rest)).reverse) :
    a.start < start + byteLength (c :: more) := by
  have := (start_of_mem_candidatesAt (List.mem_reverse.mp h)).1
  have := byteLength_pos (List.cons_ne_nil c more)
  omega

/-- Behind a choice the search goes on as if it began there. -/
theorem sweep_arrange_skip (previous : Option Char) (start : Nat) (skipped rest : Text) :
    sweep (start + byteLength skipped) (arrange (index.findFrom previous start (skipped ++ rest))) =
      sweep (start + byteLength skipped)
        (arrange (index.findFrom (skipped.getLast?.or previous) (start + byteLength skipped)
          rest)) := by
  induction skipped generalizing previous start with
  | nil => simp
  | cons c skipped ih =>
    rw [List.cons_append, arrange_findFrom,
      sweep_append_covered fun a ha => start_lt_of_mem_candidatesAt ha, byteLength_cons,
      ← Nat.add_assoc, ih, getLast?_cons_or]

/-- The longest candidate at the first place where there are any is chosen, and the search goes on
behind it. -/
theorem sweep_arrange_chosen {covered start : Nat} (h : covered ≤ start) {previous : Option Char}
    {c : Char} {skipped rest : Text} {top : Candidate P} {shorter : List (Candidate P)}
    (hgroup : index.candidatesAt previous start (c :: (skipped ++ rest)) = shorter ++ [top])
    (hstart : top.start = start) (hstop : top.stop = start + byteLength (c :: skipped)) :
    sweep covered (arrange (index.findFrom previous start (c :: (skipped ++ rest)))) =
      top :: sweep top.stop (arrange (index.findFrom (c :: skipped).getLast? top.stop rest)) := by
  have hcovered (a : Candidate P)
      (ha : a ∈ (index.candidatesAt previous start (c :: (skipped ++ rest))).reverse) :
      a.start < top.stop := hstop ▸ start_lt_of_mem_candidatesAt ha
  have hskip : sweep top.stop
      (arrange (index.findFrom (some c) (start + c.utf8Size) (skipped ++ rest))) =
        sweep top.stop (arrange (index.findFrom (c :: skipped).getLast? top.stop rest)) := by
    rw [← sweep_append_covered hcovered, ← arrange_findFrom, ← List.cons_append, hstop,
      sweep_arrange_skip, List.getLast?_cons, Option.some_or]
  rw [hgroup, List.reverse_append, List.reverse_singleton, List.singleton_append] at hcovered
  rw [arrange_findFrom, hgroup, List.reverse_append, List.reverse_singleton,
    List.singleton_append, List.cons_append, sweep, if_neg (by omega),
    sweep_append_covered fun a ha => hcovered a (List.mem_cons_of_mem top ha), hskip]

/-- Ordering all candidates and sweeping them gives what the direct description gives. -/
theorem sweep_arrange_findFrom {covered start : Nat} (h : covered ≤ start)
    (previous : Option Char) (text : Text) :
    (sweep covered (arrange (index.findFrom previous start text))).map toMatch =
      leftmostLongest index.words index.get? previous start text := by
  -- The bound stays at or before the start, so no candidate with this start is passed over.
  induction previous, start, text using
      leftmostLongest.induct index.words index.get? generalizing covered with
  | case1 previous start => simp [findFrom, arrange, sweep, leftmostLongest]
  | case2 previous start c rest hnone ih =>
    rw [dite_eq_ite] at hnone
    have hlast := index.getLast?_candidatesAt previous start (c :: rest)
    rw [hnone, Option.map_none, Option.map_eq_none_iff, List.getLast?_eq_none_iff] at hlast
    rw [arrange_findFrom, hlast, List.reverse_nil, List.nil_append,
      ih (Nat.le_add_right_of_le h), leftmostLongest, hnone]
  | case3 previous start c rest k payload hsome part =>
    rename_i ih
    rw [dite_eq_ite] at hsome
    have hlast := index.getLast?_candidatesAt previous start (c :: rest)
    rw [hsome, Option.map_some, Option.map_eq_some_iff] at hlast
    obtain ⟨top, htop, hmatch⟩ := hlast
    obtain ⟨shorter, hgroup⟩ := List.getLast?_eq_some_iff.mp htop
    have hstop : top.stop = start + byteLength part := congrArg Match.stop hmatch
    rw [← List.take_append_drop k rest] at hgroup
    have hchosen := sweep_arrange_chosen h hgroup (congrArg Match.start hmatch) hstop
    rw [List.take_append_drop] at hchosen
    rw [hchosen, List.map_cons, hmatch, leftmostLongest, hsome, hstop, ih (Nat.le_refl _)]
    rfl

/-- What is chosen for a document, for any index. -/
theorem resolve_find (document : Text) :
    resolve (index.find document) =
      leftmostLongest index.words index.get? none 0 document := by
  have hpos (a : Candidate P) (ha : a ∈ index.find document) : (!a.isEmpty) = true := by
    have := (le_start_of_mem_findFrom ha).2
    simp [isEmpty, Nat.ne_of_lt this]
  rw [resolve, List.filter_eq_self.mpr hpos, find, sweep_arrange_findFrom (Nat.le_refl 0)]

end PatternIndex
end Gloss
