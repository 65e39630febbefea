import Gloss.Proofs.Markup.Attributes
import Gloss.Proofs.Markup.Rendering
import Gloss.Proofs.Text.Slices

/-! Removing markup by byte offsets. The stripper walks from `<` to `<` and cuts the document with
checked slices; no cut, byte or counter traps, and what it writes is the document without markup. -/
namespace Gloss.Markup
open Text Piece

section Tags

def beginsWith (front : Text) (ends : Char → Bool) (t : Text) : Bool :=
  ((front.isPrefixOf? t).bind List.head?).any ends

def beginsOpenSpan : Text → Bool :=
  beginsWith ['<', 's', 'p', 'a', 'n'] fun c => c == '>' || c == '/' || isWhite c

def beginsCloseSpan : Text → Bool :=
  beginsWith ['<', '/', 's', 'p', 'a', 'n'] fun c => c == '>' || isWhite c

/-- The length of the tag that a text begins with, from its `<` through its `>`. -/
def tagLength? (t : Text) : Except Trap (Option {length : Nat // 0 < length}) := do
  let ⟨behind, _⟩ ← sliceFrom t 1
  match offsetWhere? (fun c => c == '<' || c == '>') behind with
  | none => return none
  | some offset =>
    let byte ← byteAt t (offset + 1)
    return if byte = 62 then some ⟨offset + 2, Nat.succ_pos _⟩ else none

/-- The first class name of a tag, brackets included. -/
def classSlice? (tag : Text) : Except Trap (Option Text) := do
  match offsetOf? classStart tag with
  | none => return none
  | some offset =>
    let ⟨value, _⟩ ← sliceFrom tag (offset + byteLength classStart)
    match offsetWhere? (· == '"') value with
    | none => return none
    | some stop =>
      let ⟨names, _⟩ ← sliceTo value stop
      return firstWord? names

variable {inner behind rest t : Text}

private theorem isPrefixOf?_append_cons {front s : Text} {c : Char} (hc : c ∉ front) :
    front.isPrefixOf? (s ++ c :: behind) = (front.isPrefixOf? s).map (· ++ c :: behind) := by
  induction front generalizing s with
  | nil => rfl
  | cons a front ih =>
    rw [List.mem_cons, not_or] at hc
    cases s with
    | nil => simp [List.isPrefixOf?, Ne.symm hc.1]
    | cons d s =>
      rw [List.cons_append, List.isPrefixOf?, List.isPrefixOf?, ih hc.2]
      split <;> rfl

private theorem isPrefixOf?_eq_none {front : Text} (hbare : t ≠ front)
    (hlonger : ∀ c rest, t ≠ front ++ c :: rest) : front.isPrefixOf? t = none := by
  cases hfront : front.isPrefixOf? t with
  | none => rfl
  | some tail =>
    have he := List.isPrefixOf?_eq_some_iff_append_eq.mp hfront
    cases tail with
    | nil => exact absurd (he.symm.trans (List.append_nil front)) hbare
    | cons c tail => exact absurd he.symm (hlonger c tail)

theorem beginsWith_tag {front : Text} {ends : Char → Bool} (hfront : '>' ∉ front) :
    beginsWith ('<' :: front) ends ('<' :: inner ++ '>' :: behind) =
      (front.isPrefixOf? inner).any fun tail => ends (tail.head?.getD '>') := by
  rw [beginsWith, isPrefixOf?_append_cons (by simp [hfront]), List.isPrefixOf?,
    if_pos (beq_self_eq_true _)]
  cases front.isPrefixOf? inner with
  | none => rfl
  | some tail => cases tail <;> rfl

theorem beginsOpenSpan_tag (hinner : '>' ∉ inner) (behind : Text) :
    beginsOpenSpan ('<' :: (inner ++ '>' :: behind)) = opensSpan inner := by
  rw [beginsOpenSpan, ← List.cons_append, beginsWith_tag (by decide)]
  fun_cases opensSpan inner with
  | case1 => rfl
  | case2 c rest =>
    have hc : c ≠ '>' := by
      rintro rfl
      simp at hinner
    simp [List.isPrefixOf?, beq_eq_false_iff_ne.mpr hc]
  | case3 _ hbare hlonger =>
    rw [isPrefixOf?_eq_none hbare hlonger]
    rfl

theorem beginsCloseSpan_tag (hinner : '>' ∉ inner) (behind : Text) :
    beginsCloseSpan ('<' :: (inner ++ '>' :: behind)) = closesSpan inner := by
  rw [beginsCloseSpan, ← List.cons_append, beginsWith_tag (by decide)]
  fun_cases closesSpan inner with
  | case1 => rfl
  | case2 c rest =>
    have hc : c ≠ '>' := by
      rintro rfl
      simp at hinner
    simp [List.isPrefixOf?, beq_eq_false_iff_ne.mpr hc]
  | case3 _ hbare hlonger =>
    rw [isPrefixOf?_eq_none hbare hlonger]
    rfl

private theorem isBracket_eq_false (hinner : '<' ∉ inner ∧ '>' ∉ inner) :
    ∀ c ∈ inner, (c == '<' || c == '>') = false := by
  intro c hc
  simp only [Bool.or_eq_false_iff, beq_eq_false_iff_ne]
  exact ⟨fun he => hinner.1 (he ▸ hc), fun he => hinner.2 (he ▸ hc)⟩

theorem sliceFrom_bracket (t : Text) :
    sliceFrom ('<' :: t) 1 = .ok ⟨t, isSlice_from ['<'] t⟩ :=
  sliceFrom_append ['<'] t

theorem tagLength?_tag (hinner : '<' ∉ inner ∧ '>' ∉ inner) :
    tagLength? ('<' :: (inner ++ '>' :: behind)) =
      .ok (some ⟨byteLength inner + 2, Nat.succ_pos _⟩) := by
  have hoffset : offsetWhere? (fun c => c == '<' || c == '>') (inner ++ '>' :: behind) =
      some (byteLength inner) := offsetWhere?_append (isBracket_eq_false hinner) rfl behind
  have hbyte : byteAt ('<' :: (inner ++ '>' :: behind)) (byteLength inner + 1) = .ok 62 := by
    rw [Nat.add_comm]
    exact byteAt_append rfl ('<' :: inner) behind
  simp only [tagLength?, sliceFrom_bracket, ok_bind, hoffset, hbyte, if_true]
  rfl

theorem tagLength?_stray (h : splitTag t = none) : tagLength? ('<' :: t) = .ok none := by
  simp only [tagLength?, sliceFrom_bracket, ok_bind]
  rcases forall_or_exists_first (fun c => c == '<' || c == '>') t with
    hnone | ⟨before, c, rest, rfl, hbefore, hc⟩
  · rw [offsetWhere?_of_forall hnone]
    rfl
  · have hinner : '<' ∉ before ∧ '>' ∉ before :=
      ⟨fun hmem => by simpa using hbefore _ hmem, fun hmem => by simpa using hbefore _ hmem⟩
    rw [Bool.or_eq_true, beq_iff_eq, beq_iff_eq] at hc
    rcases hc with rfl | rfl
    · have hbyte : byteAt ('<' :: (before ++ '<' :: rest)) (byteLength before + 1) = .ok 60 := by
        rw [Nat.add_comm]
        exact byteAt_append rfl ('<' :: before) rest
      rw [offsetWhere?_append hbefore rfl]
      simp only [hbyte, ok_bind]
      rfl
    · rw [splitTag_eq_some_iff.mpr ⟨rfl, hinner⟩] at h
      cases h

theorem after?_cases (pattern t : Text) : after? pattern t = none ∧ offsetOf? pattern t = none ∨
    ∃ before rest, t = before ++ pattern ++ rest ∧ after? pattern t = some rest ∧
      offsetOf? pattern t = some (byteLength before) := by
  induction t with
  | nil =>
    cases pattern with
    | nil => exact .inr ⟨[], [], rfl, rfl, rfl⟩
    | cons c pattern => exact .inl ⟨rfl, rfl⟩
  | cons c t ih =>
    simp only [after?, offsetOf?, List.isPrefixOf_iff_prefix]
    cases hfront : pattern.isPrefixOf? (c :: t) with
    | some tail =>
      have he := List.isPrefixOf?_eq_some_iff_append_eq.mp hfront
      exact .inr ⟨[], tail, he.symm, rfl, if_pos ⟨tail, he⟩⟩
    | none =>
      have hne : ¬ pattern <+: c :: t := by
        rintro ⟨tail, he⟩
        rw [List.isPrefixOf?_eq_some_iff_append_eq.mpr he] at hfront
        cases hfront
      rw [if_neg hne]
      rcases ih with ⟨hafter, hoffset⟩ | ⟨before, rest, rfl, hafter, hoffset⟩
      · exact .inl ⟨hafter, by rw [hoffset, Option.map_none]⟩
      · exact .inr ⟨c :: before, rest, rfl, hafter, by rw [hoffset]; rfl⟩

theorem classSlice?_eq (tag : Text) : classSlice? tag = .ok (firstClass? tag) := by
  rcases after?_cases classStart tag with
    ⟨hafter, hoffset⟩ | ⟨before, value, rfl, hafter, hoffset⟩
  · rw [classSlice?, hoffset, firstClass?, hafter]
    rfl
  · have hclass : firstClass? (before ++ classStart ++ value) = quotedWord? value := by
      rw [firstClass?, hafter]
      rfl
    have hvalue : IsSlice (before ++ classStart ++ value)
        (byteLength before + byteLength classStart) (byteLength (before ++ classStart ++ value))
        value :=
      byteLength_append before classStart ▸ isSlice_from (before ++ classStart) value
    simp only [classSlice?, hoffset, sliceFrom, slice_eq_ok hvalue, ok_bind, hclass]
    rcases offset_cases '"' value with ⟨hnone, hstop⟩ | ⟨names, rest, rfl, hnames, hstop⟩
    · rw [hstop, quotedWord?_of_not_mem hnone]
      rfl
    · rw [hstop, quotedWord?_append_quote hnames]
      simp only [sliceTo_append, ok_bind]
      rfl

theorem firstClass?_concat (t : Text) : firstClass? (t ++ ['>']) = firstClass? t := by
  -- On the length, as each quote may begin a class of its own.
  induction hlength : t.length using Nat.strong_induction_on generalizing t with
  | h length ih =>
    by_cases hquote : '"' ∈ t
    · obtain ⟨s, rest, rfl, hs⟩ := List.eq_append_cons_of_mem hquote
      have hrest : firstClass? (rest ++ ['>']) = firstClass? rest :=
        ih rest.length (by simp [← hlength]; omega) rest rfl
      have hquoted : quotedWord? (rest ++ ['>']) = quotedWord? rest := by
        by_cases hmem : '"' ∈ rest
        · obtain ⟨names, more, rfl, hnames⟩ := List.eq_append_cons_of_mem hmem
          rw [List.append_assoc, List.cons_append, quotedWord?_append_quote hnames,
            quotedWord?_append_quote hnames]
        · rw [quotedWord?_of_not_mem hmem, quotedWord?_of_not_mem (by simp [hmem])]
      rw [List.append_assoc, List.cons_append, firstClass?_append_quote hs,
        firstClass?_append_quote hs, hrest, hquoted]
    · rw [firstClass?_of_not_mem hquote, firstClass?_of_not_mem (by simp [hquote])]

theorem firstClass?_brackets (inner : Text) :
    firstClass? ('<' :: inner ++ ['>']) = firstClass? inner := by
  have hopen : after? classStart ('<' :: inner) = after? classStart inner := rfl
  rw [firstClass?_concat, firstClass?, hopen]
  rfl

theorem tagLength?_of_stray (h : spanTag? t = none) : tagLength? ('<' :: t) = .ok none ∨
    ∃ length, tagLength? ('<' :: t) = .ok (some length) ∧ beginsOpenSpan ('<' :: t) = false ∧
      beginsCloseSpan ('<' :: t) = false := by
  cases hsplit : splitTag t with
  | none => exact .inl (tagLength?_stray hsplit)
  | some split =>
    obtain ⟨inner, behind⟩ := split
    obtain ⟨rfl, hinner⟩ := splitTag_eq_some_iff.mp hsplit
    rw [spanTag?, hsplit] at h
    dsimp only at h
    split_ifs at h with hclose hopen
    exact .inr ⟨_, tagLength?_tag hinner,
      (beginsOpenSpan_tag hinner.2 behind).trans (Bool.eq_false_iff.mpr hopen),
      (beginsCloseSpan_tag hinner.2 behind).trans (Bool.eq_false_iff.mpr hclose)⟩

theorem opensSpan_of_closesSpan (h : closesSpan inner = true) : opensSpan inner = false := by
  unfold closesSpan at h
  split at h
  · rfl
  · rfl
  · cases h

theorem byteLength_tag (inner : Text) :
    byteLength ('<' :: inner ++ ['>']) = byteLength inner + 2 := by
  simp [show '<'.utf8Size = 1 from rfl, show '>'.utf8Size = 1 from rfl]
  omega

theorem isSlice_tag (inner behind : Text) :
    IsSlice ('<' :: (inner ++ '>' :: behind)) 0 (byteLength inner + 2) ('<' :: inner ++ ['>']) :=
  ⟨[], behind, by simp, rfl, (byteLength_tag inner).symm⟩

theorem isSlice_behind_tag (inner behind : Text) : IsSlice ('<' :: (inner ++ '>' :: behind))
    (byteLength inner + 2) (byteLength ('<' :: (inner ++ '>' :: behind))) behind :=
  ⟨'<' :: inner ++ ['>'], [], by simp, (byteLength_tag inner).symm, by simp⟩

end Tags

section Blocks

/-- What a `<` does to a block: some spans are open behind it, or the block ends with its tag. -/
inductive BlockStep where
  | inside (depth : Nat)
  | ended (length : Nat)
  deriving DecidableEq, Repr

def blockStep (depth : Nat) (t : Text) : Except Trap BlockStep := do
  match ← tagLength? t with
  | none => return .inside depth
  | some ⟨length, _⟩ =>
    if beginsOpenSpan t then return .inside (depth + 1)
    else if beginsCloseSpan t then
      let outer ← decrement depth
      return if outer = 0 then .ended length else .inside outer
    else return .inside depth

/-- What follows a block with some open spans: nothing, if it never ends. -/
def skipBlock (depth : Nat) (t : Text) :
    Except Trap {rest : Text // byteLength rest ≤ byteLength t} :=
  match offsetWhere? (· == '<') t with
  | none => .ok ⟨[], Nat.zero_le _⟩
  | some offset => do
    let ⟨tail, htail⟩ ← sliceFrom t offset
    match ← blockStep depth tail with
    | .ended length =>
      let ⟨rest, hrest⟩ ← sliceFrom tail length
      return ⟨rest, by have := htail.byteLength_add; have := hrest.byteLength_add; omega⟩
    | .inside depth =>
      let ⟨behind, hbehind⟩ ← sliceFrom tail 1
      let ⟨rest, hrest⟩ ← skipBlock depth behind
      return ⟨rest, by have := htail.byteLength_add; have := hbehind.byteLength_add; omega⟩
termination_by byteLength t
decreasing_by
  have := htail.byteLength_add
  have := hbehind.byteLength_add
  omega

variable {vocabulary : Vocabulary} {stack : List OpenSpan} {inner behind t : Text} {depth : Nat}

theorem blockStep_stray (h : spanTag? t = none) :
    blockStep depth ('<' :: t) = .ok (.inside depth) := by
  rcases tagLength?_of_stray h with hlength | ⟨length, hlength, hopen, hclose⟩
  · rw [blockStep, hlength]
    rfl
  · simp only [blockStep, hlength, ok_bind, hopen, hclose]
    rfl

theorem blockStep_openTag (h : IsTag inner (.openTag inner)) :
    blockStep depth ('<' :: (inner ++ '>' :: behind)) = .ok (.inside (depth + 1)) := by
  rcases h.2 with ⟨-, he⟩ | ⟨-, hopen, -⟩
  · cases he
  · have hbegins := (beginsOpenSpan_tag h.1.2 behind).trans hopen
    simp only [blockStep, tagLength?_tag h.1, ok_bind]
    rw [if_pos hbegins]
    rfl

theorem blockStep_closeTag (h : IsTag inner (.closeTag inner)) :
    blockStep (depth + 1) ('<' :: (inner ++ '>' :: behind)) =
      .ok (if depth = 0 then .ended (byteLength inner + 2) else .inside depth) := by
  rcases h.2 with ⟨hclose, -⟩ | ⟨-, -, he⟩
  · have hbegins := (beginsCloseSpan_tag h.1.2 behind).trans hclose
    have hopen := (beginsOpenSpan_tag h.1.2 behind).trans (opensSpan_of_closesSpan hclose)
    simp only [blockStep, tagLength?_tag h.1, ok_bind]
    rw [if_neg (by simp [hopen]), if_pos hbegins]
    rfl
  · cases he

theorem stripPieces_skip (hs : '<' ∉ inner) :
    stripPieces vocabulary stack (depth + 1) (scan (inner ++ t)) =
      stripPieces vocabulary stack (depth + 1) (scan t) := by
  rw [Reads.of_not_mem hs, stripPieces_skipping (depth?_chars depth inner)]

/-- Behind a block, the rest is cut off without a trap, and it is what the stripper goes on with. -/
theorem skipBlock_eq (depth : Nat) (t : Text) : ∃ rest, skipBlock (depth + 1) t = .ok rest ∧
    ∀ vocabulary stack, stripPieces vocabulary stack (depth + 1) (scan t) =
      stripPieces vocabulary stack 0 (scan rest.1) := by
  induction hlength : t.length using Nat.strong_induction_on generalizing t depth with
  | h length ih =>
    rw [skipBlock]
    rcases offset_cases '<' t with ⟨hnone, hoffset⟩ | ⟨before, more, rfl, hbefore, hoffset⟩
    · rw [hoffset]
      refine ⟨_, rfl, fun vocabulary stack => ?_⟩
      rw [← List.append_nil t, stripPieces_skip hnone, scan_nil]
      rfl
    · simp only [hoffset, sliceFrom_append, ok_bind, stripPieces_skip hbefore]
      rw [List.length_append, List.length_cons] at hlength
      cases htag : spanTag? more with
      | none =>
        obtain ⟨rest, hskip, hstrip⟩ := ih more.length (by omega) depth more rfl
        simp only [blockStep_stray htag, sliceFrom_bracket, ok_bind, hskip, scan_stray htag]
        exact ⟨_, rfl, hstrip⟩
      | some found =>
        obtain ⟨piece, behind⟩ := found
        obtain ⟨inner, rfl, hpiece⟩ := spanTag?_eq_some_iff.mp htag
        have hinner : '<' ∉ inner ++ ['>'] := List.not_mem_append hpiece.1.1 (by decide)
        have hwhole : inner ++ '>' :: behind = inner ++ ['>'] ++ behind := by simp
        rw [scan_spanTag htag]
        rcases hpiece.2 with ⟨-, rfl⟩ | ⟨-, -, rfl⟩
        · simp only [blockStep_closeTag hpiece, ok_bind]
          cases depth with
          | zero =>
            simp only [if_true, sliceFrom, slice_eq_ok (isSlice_behind_tag inner behind), ok_bind]
            exact ⟨_, rfl, fun _ _ => rfl⟩
          | succ depth =>
            obtain ⟨rest, hskip, hstrip⟩ :=
              ih (inner ++ '>' :: behind).length (by omega) depth (inner ++ '>' :: behind) rfl
            simp only [Nat.succ_ne_zero, if_false, sliceFrom_bracket, ok_bind, hskip]
            refine ⟨_, rfl, fun vocabulary stack => ?_⟩
            rw [← hstrip, hwhole, stripPieces_skip hinner]
            rfl
        · obtain ⟨rest, hskip, hstrip⟩ :=
            ih (inner ++ '>' :: behind).length (by omega) (depth + 1) (inner ++ '>' :: behind) rfl
          simp only [blockStep_openTag hpiece, sliceFrom_bracket, ok_bind, hskip]
          refine ⟨_, rfl, fun vocabulary stack => ?_⟩
          rw [← hstrip, hwhole, stripPieces_skip hinner]
          rfl

end Blocks

section Documents

/-- What a `<` outside blocks becomes. -/
structure StripStep where
  written : Text
  stack : List OpenSpan
  /-- How much of the document it takes up. -/
  length : {length : Nat // 0 < length}
  opensBlock : Bool := false

def SpanRole.ofClass (vocabulary : Vocabulary) : Option Text → SpanRole
  | none => .foreign
  | some name =>
    if name = vocabulary.textClass then .block
    else if name = vocabulary.containerClass || name = vocabulary.referenceClass then .wrapper
    else .foreign

def stripStep (vocabulary : Vocabulary) (stack : List OpenSpan) (t : Text) :
    Except Trap StripStep := do
  match ← tagLength? t with
  | none => return { written := ['<'], stack, length := ⟨1, Nat.one_pos⟩ }
  | some length =>
    if beginsCloseSpan t then
      match stack with
      | .unwrapped :: outer => return { written := [], stack := outer, length }
      | .kept :: outer =>
        let ⟨tag, _⟩ ← sliceTo t length
        return { written := tag, stack := outer, length }
      | [] =>
        let ⟨tag, _⟩ ← sliceTo t length
        return { written := tag, stack := [], length }
    else if beginsOpenSpan t then
      let ⟨tag, _⟩ ← sliceTo t length
      match SpanRole.ofClass vocabulary (← classSlice? tag) with
      | .block => return { written := [], stack, length, opensBlock := true }
      | .wrapper => return { written := [], stack := .unwrapped :: stack, length }
      | .foreign => return { written := tag, stack := .kept :: stack, length }
    else return { written := ['<'], stack, length := ⟨1, Nat.one_pos⟩ }

def stripFrom (vocabulary : Vocabulary) (stack : List OpenSpan) (t : Text) : Except Trap Text :=
  match offsetWhere? (· == '<') t with
  | none => .ok t
  | some offset => do
    let ⟨before, _⟩ ← sliceTo t offset
    let ⟨tail, _htail⟩ ← sliceFrom t offset
    let step ← stripStep vocabulary stack tail
    let ⟨behind, _hbehind⟩ ← sliceFrom tail step.length
    let ⟨rest, _hrest⟩ ← if step.opensBlock then skipBlock 1 behind else .ok ⟨behind, Nat.le_refl _⟩
    return before ++ step.written ++ (← stripFrom vocabulary step.stack rest)
termination_by byteLength t
decreasing_by
  have := _htail.byteLength_add
  have := _hbehind.byteLength_add
  have := step.length.2
  omega

def stripSlices (vocabulary : Vocabulary) (html : Text) : Except Trap Text :=
  stripFrom vocabulary [] html

variable {vocabulary : Vocabulary} {stack : List OpenSpan} {inner behind t : Text}

theorem SpanRole.ofTag_eq (vocabulary : Vocabulary) (inner : Text) :
    SpanRole.ofTag vocabulary inner = SpanRole.ofClass vocabulary (firstClass? inner) := by
  unfold SpanRole.ofTag SpanRole.ofClass
  rfl

theorem stripStep_stray (h : spanTag? t = none) : stripStep vocabulary stack ('<' :: t) =
    .ok { written := ['<'], stack, length := ⟨1, Nat.one_pos⟩ } := by
  rcases tagLength?_of_stray h with hlength | ⟨length, hlength, hopen, hclose⟩
  · rw [stripStep, hlength]
    rfl
  · simp only [stripStep, hlength, ok_bind, hopen, hclose]
    rfl

/-- The step at a tag takes up the tag, and does with it what the stripper does. -/
theorem stripStep_tag {piece : Piece} (h : IsTag inner piece) (behind : Text) :
    ∃ step, stripStep vocabulary stack ('<' :: (inner ++ '>' :: behind)) = .ok step ∧
      step.length.1 = byteLength inner + 2 ∧
      ∀ l, stripPieces vocabulary stack 0 (piece :: l) = step.written ++
        stripPieces vocabulary step.stack (if step.opensBlock then 1 else 0) l := by
  have htag := slice_eq_ok (isSlice_tag inner behind)
  rcases h.2 with ⟨hclose, rfl⟩ | ⟨hclose, hopen, rfl⟩
  · have hbegins := (beginsCloseSpan_tag h.1.2 behind).trans hclose
    simp only [stripStep, tagLength?_tag h.1, ok_bind, hbegins, if_true, sliceTo, htag]
    cases stack with
    | nil => exact ⟨_, rfl, rfl, fun _ => rfl⟩
    | cons span outer => cases span <;> exact ⟨_, rfl, rfl, fun _ => rfl⟩
  · have hbegins := (beginsOpenSpan_tag h.1.2 behind).trans hopen
    have hother := (beginsCloseSpan_tag h.1.2 behind).trans hclose
    simp only [stripStep, tagLength?_tag h.1, ok_bind, hbegins, hother, if_true, sliceTo, htag,
      classSlice?_eq, firstClass?_brackets]
    rw [← SpanRole.ofTag_eq]
    cases hrole : SpanRole.ofTag vocabulary inner with
    | block => exact ⟨_, rfl, rfl, fun _ => stripPieces_block hrole _⟩
    | wrapper => exact ⟨_, rfl, rfl, fun _ => stripPieces_wrapper hrole _⟩
    | foreign =>
      refine ⟨_, rfl, rfl, fun l => ?_⟩
      rw [stripPieces, if_pos rfl, hrole]
      rfl

/-- Every `<` outside blocks is the first character of a piece, which is cut off whole. -/
theorem stripStep_eq (vocabulary : Vocabulary) (stack : List OpenSpan) (t : Text) :
    ∃ step piece behind, stripStep vocabulary stack ('<' :: t) = .ok step ∧
      scan ('<' :: t) = piece :: scan behind ∧
      IsSlice ('<' :: t) step.length (byteLength ('<' :: t)) behind ∧
      ∀ l, stripPieces vocabulary stack 0 (piece :: l) = step.written ++
        stripPieces vocabulary step.stack (if step.opensBlock then 1 else 0) l := by
  cases htag : spanTag? t with
  | none =>
    exact ⟨_, _, t, stripStep_stray htag, scan_stray htag, isSlice_from ['<'] t, fun _ => rfl⟩
  | some found =>
    obtain ⟨piece, behind⟩ := found
    obtain ⟨inner, rfl, hpiece⟩ := spanTag?_eq_some_iff.mp htag
    obtain ⟨step, hstep, hlength, hstrip⟩ := stripStep_tag hpiece behind
    exact ⟨step, piece, behind, hstep, scan_spanTag htag, hlength ▸ isSlice_behind_tag inner behind,
      hstrip⟩

theorem stripFrom_eq (vocabulary : Vocabulary) (stack : List OpenSpan) (t : Text) :
    stripFrom vocabulary stack t = .ok (stripPieces vocabulary stack 0 (scan t)) := by
  induction hlength : byteLength t using Nat.strong_induction_on generalizing t stack with
  | h length ih =>
    rw [stripFrom]
    rcases offset_cases '<' t with ⟨hnone, hoffset⟩ | ⟨before, more, rfl, hbefore, hoffset⟩
    · rw [hoffset, ← List.append_nil t, Reads.of_not_mem hnone, stripPieces_chars, scan_nil]
      rfl
    · obtain ⟨step, piece, behind, hstep, hscan, hslice, hstrip⟩ :=
        stripStep_eq vocabulary stack more
      have hshorter := hslice.byteLength_add
      have hpos := step.length.2
      rw [byteLength_append] at hlength
      rw [Reads.of_not_mem hbefore, stripPieces_chars, hscan, hstrip]
      simp only [hoffset, sliceTo_append, sliceFrom_append, ok_bind, hstep]
      simp only [sliceFrom, slice_eq_ok hslice, ok_bind]
      by_cases hblock : step.opensBlock = true
      · obtain ⟨rest, hskip, hrest⟩ := skipBlock_eq 0 behind
        have hbound := rest.2
        rw [if_pos hblock, if_pos hblock, hskip, ok_bind,
          ih (byteLength rest.1) (by omega) step.stack rest.1 rfl, hrest, ← List.append_assoc]
        rfl
      · rw [if_neg hblock, if_neg hblock, ih (byteLength behind) (by omega) step.stack behind rfl,
          ← List.append_assoc]
        rfl

theorem stripSlices_eq (vocabulary : Vocabulary) (html : Text) :
    stripSlices vocabulary html = .ok (strip vocabulary html) :=
  stripFrom_eq vocabulary [] html

end Documents

end Gloss.Markup
