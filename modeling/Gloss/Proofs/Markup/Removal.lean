import Gloss.Proofs.Markup.Matching
import Mathlib.Data.List.Basic

/-! What the stripper removes, told by matching tags over the whole document, and that its one pass
with a stack and a counter removes just that. -/
namespace Gloss.Markup
open Piece

section Selection
variable (vocabulary : Vocabulary) (l : List Piece)

def classAt? (place : Nat) : Option Text :=
  (l[place]?.bind openTag?).bind firstClass?

/-- The places of the blocks to remove among the first pieces. A block inside one of them is no
block of its own. -/
def blocks : Nat → List Nat
  | 0 => []
  | place + 1 =>
    if classAt? l place = some vocabulary.textClass ∧
        ∀ start ∈ blocks place, ¬ Spans l start place then place :: blocks place
    else blocks place

def InBlock (place : Nat) : Prop :=
  ∃ start ∈ blocks vocabulary l l.length, Spans l start place

instance (place : Nat) : Decidable (InBlock vocabulary l place) :=
  inferInstanceAs (Decidable (∃ start ∈ _, _))

def Unwrapped (place : Nat) : Prop :=
  ¬ InBlock vocabulary l place ∧ (classAt? l place = some vocabulary.containerClass ∨
    classAt? l place = some vocabulary.referenceClass)

instance (place : Nat) : Decidable (Unwrapped vocabulary l place) :=
  inferInstanceAs (Decidable (_ ∧ _))

/-- A piece goes with the block it lies in, or as one of the two tags of an unwrapped span. -/
def Removed (place : Nat) : Prop :=
  InBlock vocabulary l place ∨ Unwrapped vocabulary l place ∨
    ∃ start < place, Unwrapped vocabulary l start ∧ Matched l start place

instance (place : Nat) : Decidable (Removed vocabulary l place) :=
  inferInstanceAs (Decidable (_ ∨ _ ∨ _))

def keptPieces : List Piece :=
  (l.zipIdx.filter fun entry => ¬ Removed vocabulary l entry.2).map Prod.fst

end Selection

variable {vocabulary : Vocabulary} {l : List Piece} {place start : Nat}

theorem classAt?_eq_some_iff {name : Text} : classAt? l place = some name ↔
    ∃ inner, l[place]? = some (.openTag inner) ∧ firstClass? inner = some name := by
  unfold classAt?
  cases l[place]? with
  | none => simp
  | some piece => cases piece <;> simp [openTag?]

theorem spans_iff {name : Text} (hclass : classAt? l start = some name) (hplace : place < l.length) :
    Spans l start place ↔ start = place ∨ start ∈ opened (l.take place) := by
  obtain ⟨inner, hopens, -⟩ := classAt?_eq_some_iff.mp hclass
  rcases Nat.lt_trichotomy start place with hlt | rfl | hlt
  · rw [mem_opened_take_iff hopens hlt (Nat.le_of_lt hplace), Spans,
      and_iff_right (Nat.le_of_lt hlt), or_iff_right (Nat.ne_of_lt hlt)]
  · simp only [true_or, iff_true]
    exact ⟨Nat.le_refl _, fun stop hstop h => Nat.lt_asymm hstop h.lt⟩
  · constructor
    · exact fun h => absurd h.1 (Nat.not_le_of_lt hlt)
    · rintro (rfl | h)
      · exact absurd hlt (Nat.lt_irrefl _)
      · have := lt_length_of_mem_opened h
        have := List.length_take_le place l
        omega

theorem Piece.Spans.trans {name name' : Text} {outer : Nat} (hclass : classAt? l start = some name)
    (hclass' : classAt? l outer = some name') (hplace : place < l.length)
    (houter : Spans l outer start) (hinner : Spans l start place) : Spans l outer place := by
  rcases (spans_iff hclass hplace).mp hinner with rfl | hinner
  · exact houter
  · have hstart : start < l.length := by
      have := lt_length_of_mem_opened hinner
      have := List.length_take_le place l
      omega
    have hlt := lt_length_of_mem_opened hinner
    rw [List.length_take_of_le (Nat.le_of_lt hplace)] at hlt
    rcases (spans_iff hclass' hstart).mp houter with rfl | houter
    · exact (spans_iff hclass' hplace).mpr (.inr hinner)
    · have hsuffix := opened_suffix hinner
      rw [List.take_take, Nat.min_eq_left (Nat.le_of_lt hlt)] at hsuffix
      exact (spans_iff hclass' hplace).mpr
        (.inr (hsuffix.subset (List.mem_cons_of_mem _ houter)))

theorem mem_blocks_iff {bound : Nat} : start ∈ blocks vocabulary l bound ↔
    start < bound ∧ classAt? l start = some vocabulary.textClass ∧
      ∀ outer ∈ blocks vocabulary l start, ¬ Spans l outer start := by
  induction bound with
  | zero => simp [blocks]
  | succ bound ih =>
    rw [blocks, Nat.lt_succ_iff_lt_or_eq]
    split
    · next h =>
      rw [List.mem_cons, ih]
      constructor
      · rintro (rfl | ⟨hlt, hrest⟩)
        · exact ⟨.inr rfl, h⟩
        · exact ⟨.inl hlt, hrest⟩
      · rintro ⟨hlt | rfl, hrest⟩
        · exact .inr ⟨hlt, hrest⟩
        · exact .inl rfl
    · next h =>
      rw [ih]
      constructor
      · rintro ⟨hlt, hrest⟩
        exact ⟨.inl hlt, hrest⟩
      · rintro ⟨hlt | rfl, hrest⟩
        · exact ⟨hlt, hrest⟩
        · exact absurd hrest h

/-- Whatever lies in a block lies in one that is removed. -/
theorem inBlock_of_spans (hclass : classAt? l start = some vocabulary.textClass)
    (hplace : place < l.length) (h : Spans l start place) : InBlock vocabulary l place := by
  by_cases hinside : ∃ outer ∈ blocks vocabulary l start, Spans l outer start
  · obtain ⟨outer, hmem, houter⟩ := hinside
    obtain ⟨hlt, hclass', hoff⟩ := mem_blocks_iff.mp hmem
    have hlength : outer < l.length := Nat.lt_of_lt_of_le hlt (h.1.trans (Nat.le_of_lt hplace))
    exact ⟨outer, mem_blocks_iff.mpr ⟨hlength, hclass', hoff⟩,
      houter.trans hclass hclass' hplace h⟩
  · have hlength : start < l.length := Nat.lt_of_le_of_lt h.1 hplace
    refine ⟨start, mem_blocks_iff.mpr ⟨hlength, hclass, ?_⟩, h⟩
    exact fun outer hmem houter => hinside ⟨outer, hmem, houter⟩

/-- A place lies in a block when a block is open there or begins there. -/
theorem inBlock_iff (hplace : place < l.length) : InBlock vocabulary l place ↔
    classAt? l place = some vocabulary.textClass ∨
      ∃ start ∈ opened (l.take place), classAt? l start = some vocabulary.textClass := by
  constructor
  · rintro ⟨start, hmem, hspans⟩
    obtain ⟨-, hclass, -⟩ := mem_blocks_iff.mp hmem
    rcases (spans_iff hclass hplace).mp hspans with rfl | hopen
    · exact .inl hclass
    · exact .inr ⟨start, hopen, hclass⟩
  · rintro (hclass | ⟨start, hopen, hclass⟩)
    · exact inBlock_of_spans hclass hplace ((spans_iff hclass hplace).mpr (.inl rfl))
    · exact inBlock_of_spans hclass hplace ((spans_iff hclass hplace).mpr (.inr hopen))

theorem inBlock_of_class (hclass : classAt? l place = some vocabulary.textClass) :
    InBlock vocabulary l place := by
  obtain ⟨inner, hopens, -⟩ := classAt?_eq_some_iff.mp hclass
  have hlt : place < l.length := (List.getElem?_eq_some_iff.mp hopens).1
  exact inBlock_of_spans hclass hlt ((spans_iff hclass hlt).mpr (.inl rfl))

def roleAt (vocabulary : Vocabulary) (l : List Piece) (place : Nat) : SpanRole :=
  (l[place]?.bind openTag?).elim .foreign (SpanRole.ofTag vocabulary)

theorem roleAt_eq_block_iff :
    roleAt vocabulary l place = .block ↔ classAt? l place = some vocabulary.textClass := by
  unfold roleAt classAt?
  cases l[place]?.bind openTag? with
  | none => simp
  | some inner =>
    rw [Option.elim_some, Option.bind_some, SpanRole.ofTag]
    cases firstClass? inner with
    | none => simp
    | some name =>
      dsimp only
      split_ifs <;> simp_all

theorem roleAt_eq_wrapper_iff : roleAt vocabulary l place = .wrapper ↔
    classAt? l place ≠ some vocabulary.textClass ∧
      (classAt? l place = some vocabulary.containerClass ∨
        classAt? l place = some vocabulary.referenceClass) := by
  unfold roleAt classAt?
  cases l[place]?.bind openTag? with
  | none => simp
  | some inner =>
    rw [Option.elim_some, Option.bind_some, SpanRole.ofTag]
    cases firstClass? inner with
    | none => simp
    | some name =>
      dsimp only
      split_ifs <;> simp_all

/-- The stack and the counter of the stripper, given the places of the open spans. From the
outermost block inwards spans are counted only. -/
def openSpans (vocabulary : Vocabulary) (l : List Piece) : List Nat → List OpenSpan × Nat
  | [] => ([], 0)
  | place :: outer =>
    let (stack, skipping) := openSpans vocabulary l outer
    if skipping ≠ 0 then (stack, skipping + 1)
    else match roleAt vocabulary l place with
      | .block => (stack, 1)
      | .wrapper => (.unwrapped :: stack, 0)
      | .foreign => (.kept :: stack, 0)

theorem skipping_eq_zero_iff {places : List Nat} : (openSpans vocabulary l places).2 = 0 ↔
    ∀ start ∈ places, roleAt vocabulary l start ≠ .block := by
  induction places with
  | nil => simp [openSpans]
  | cons place outer ih =>
    rw [List.forall_mem_cons, ← ih]
    simp only [openSpans]
    split_ifs with hskip
    · simp [hskip]
    · rw [not_not] at hskip
      cases roleAt vocabulary l place <;> simp [hskip]

/-- When a span inside a block is closed, or the block itself, the stripper is back where it was
before the span. -/
theorem openSpans_tail_of_skipping {places : List Nat}
    (h : (openSpans vocabulary l places).2 ≠ 0) :
    openSpans vocabulary l places.tail =
      ((openSpans vocabulary l places).1, (openSpans vocabulary l places).2 - 1) := by
  cases places with
  | nil => exact absurd rfl h
  | cons place outer =>
    rw [List.tail_cons]
    simp only [openSpans] at h ⊢
    split_ifs at h ⊢ with hskip
    · rfl
    · rw [not_not] at hskip
      cases hrole : roleAt vocabulary l place with
      | block => exact Prod.ext rfl hskip
      | wrapper =>
        rw [hrole] at h
        exact absurd rfl h
      | foreign =>
        rw [hrole] at h
        exact absurd rfl h

theorem openSpans_cons_of_outside {outer : List Nat}
    (h : (openSpans vocabulary l (place :: outer)).2 = 0) :
    (openSpans vocabulary l outer).2 = 0 ∧ (openSpans vocabulary l (place :: outer)).1 =
      (if roleAt vocabulary l place = .wrapper then .unwrapped else .kept) ::
        (openSpans vocabulary l outer).1 := by
  simp only [openSpans] at h ⊢
  split_ifs at h ⊢ with hskip
  all_goals rw [not_not] at hskip
  all_goals cases hrole : roleAt vocabulary l place <;> simp_all

section Steps
variable {before rest : List Piece} {piece : Piece}

private theorem inBlock_length_iff (hl : l = before ++ piece :: rest) :
    InBlock vocabulary l before.length ↔ roleAt vocabulary l before.length = .block ∨
      (openSpans vocabulary l (opened before)).2 ≠ 0 := by
  have hlt : before.length < l.length := by simp [hl]
  have htake : l.take before.length = before := by rw [hl, List.take_left]
  rw [inBlock_iff hlt, htake, ne_eq, skipping_eq_zero_iff]
  simp only [not_forall, not_not, exists_prop, roleAt_eq_block_iff]

private theorem unwrapped_length_iff (hl : l = before ++ piece :: rest) :
    Unwrapped vocabulary l before.length ↔ roleAt vocabulary l before.length = .wrapper ∧
      (openSpans vocabulary l (opened before)).2 = 0 := by
  rw [Unwrapped, inBlock_length_iff hl, roleAt_eq_wrapper_iff, roleAt_eq_block_iff, not_or,
    not_not, and_right_comm]

private theorem matched_length_iff (hl : l = before ++ piece :: rest) :
    Matched l start before.length ↔
      piece.isClosing = true ∧ (opened before).head? = some start := by
  rw [Matched, hl, List.getElem?_append_right (Nat.le_refl _), Nat.sub_self, List.take_left]
  rfl

private theorem roleAt_length (hl : l = before ++ piece :: rest) :
    roleAt vocabulary l before.length =
      piece.openTag?.elim .foreign (SpanRole.ofTag vocabulary) := by
  rw [roleAt, hl, List.getElem?_append_right (Nat.le_refl _), Nat.sub_self]
  rfl

/-- A piece that closes nothing is kept outside blocks unless it opens a span with a role. -/
private theorem removed_iff_of_not_closing (hl : l = before ++ piece :: rest)
    (hpiece : piece.isClosing = false) :
    Removed vocabulary l before.length ↔ (openSpans vocabulary l (opened before)).2 ≠ 0 ∨
      piece.openTag?.elim .foreign (SpanRole.ofTag vocabulary) ≠ .foreign := by
  simp only [Removed, inBlock_length_iff hl, unwrapped_length_iff hl, matched_length_iff hl,
    hpiece, ← roleAt_length hl, Bool.false_eq_true, false_and, and_false, exists_false, or_false]
  cases roleAt vocabulary l before.length <;> simp [em']

private theorem not_inBlock_of_opened (hl : l = before ++ rest)
    (hskip : (openSpans vocabulary l (opened before)).2 = 0) (hopen : start ∈ opened before) :
    ¬ InBlock vocabulary l start := by
  have hlt := lt_length_of_mem_opened hopen
  have hlength : start < l.length := by
    rw [hl, List.length_append]
    omega
  have htake : l.take start = before.take start := by
    rw [hl, List.take_append_of_le_length (Nat.le_of_lt hlt)]
  have hnoblock := skipping_eq_zero_iff.mp hskip
  rw [inBlock_iff hlength, htake, ← roleAt_eq_block_iff]
  rintro (hblock | ⟨earlier, hmem, hclass⟩)
  · exact hnoblock start hopen hblock
  · have hmem := (opened_suffix hopen).subset (List.mem_cons_of_mem _ hmem)
    exact hnoblock earlier hmem (roleAt_eq_block_iff.mpr hclass)

/-- Outside blocks a closing tag goes when it closes an unwrapped span. -/
private theorem removed_iff_of_closing {inner : Text} (hl : l = before ++ .closeTag inner :: rest)
    (hskip : (openSpans vocabulary l (opened before)).2 = 0) :
    Removed vocabulary l before.length ↔
      ∃ start, (opened before).head? = some start ∧ roleAt vocabulary l start = .wrapper := by
  have hrole : roleAt vocabulary l before.length = .foreign := roleAt_length hl
  simp only [Removed, inBlock_length_iff hl, unwrapped_length_iff hl, matched_length_iff hl,
    hrole, hskip, isClosing, reduceCtorEq, ne_eq, not_true_eq_false, false_and, false_or, true_and]
  constructor
  · rintro ⟨start, -, ⟨hoff, hclass⟩, hhead⟩
    have hblock : classAt? l start ≠ some vocabulary.textClass := mt inBlock_of_class hoff
    exact ⟨start, hhead, roleAt_eq_wrapper_iff.mpr ⟨hblock, hclass⟩⟩
  · rintro ⟨start, hhead, hwrapper⟩
    have hopen := List.mem_of_mem_head? hhead
    refine ⟨start, lt_length_of_mem_opened hopen, ⟨?_, ?_⟩, hhead⟩
    · exact not_inBlock_of_opened hl hskip hopen
    · exact (roleAt_eq_wrapper_iff.mp hwrapper).2

private theorem stripPieces_closeTag_skipping {stack : List OpenSpan} {skipping : Nat}
    (h : skipping ≠ 0) (inner : Text) :
    stripPieces vocabulary stack skipping (.closeTag inner :: rest) =
      stripPieces vocabulary stack (skipping - 1) rest := by
  cases skipping with
  | zero => exact absurd rfl h
  | succ depth => rfl

/-- One piece is removed or kept by the matching, and the stripper goes on with the spans that are
open behind it. -/
theorem stripPieces_step (hl : l = before ++ piece :: rest) :
    stripPieces vocabulary (openSpans vocabulary l (opened before)).1
        (openSpans vocabulary l (opened before)).2 (piece :: rest) =
      (if Removed vocabulary l before.length then [] else piece.text) ++
        stripPieces vocabulary (openSpans vocabulary l (opened (before ++ [piece]))).1
          (openSpans vocabulary l (opened (before ++ [piece]))).2 rest := by
  rw [opened_concat]
  by_cases hskip : (openSpans vocabulary l (opened before)).2 = 0
  · cases piece with
    | char c =>
      have hkept : ¬ Removed vocabulary l before.length := by
        rw [removed_iff_of_not_closing hl rfl]
        simp [hskip, openTag?]
      rw [if_neg hkept, hskip]
      rfl
    | openTag inner =>
      have hrole : roleAt vocabulary l before.length = SpanRole.ofTag vocabulary inner :=
        roleAt_length hl
      have hremoved : Removed vocabulary l before.length ↔ _ := removed_iff_of_not_closing hl rfl
      simp only [openSpans, hskip, openTag?, Option.elim_some, hrole, ne_eq, not_true_eq_false,
        false_or, if_false] at hremoved ⊢
      rw [stripPieces, if_pos rfl]
      simp only [hremoved]
      cases SpanRole.ofTag vocabulary inner <;> simp
    | closeTag inner =>
      have hremoved := removed_iff_of_closing hl hskip
      dsimp only
      cases hopened : opened before with
      | nil =>
        simp only [hopened, List.head?_nil, reduceCtorEq, false_and, exists_false] at hremoved
        rw [if_neg hremoved.mp]
        rfl
      | cons top outer =>
        simp only [hopened, List.head?_cons, Option.some.injEq, exists_eq_left'] at hremoved
        rw [hopened] at hskip
        obtain ⟨houter, hstack⟩ := openSpans_cons_of_outside hskip
        rw [List.tail_cons, hskip, houter, hstack]
        simp only [hremoved]
        split_ifs <;> rfl
  · have hremoved : Removed vocabulary l before.length :=
      .inl ((inBlock_length_iff hl).mpr (.inr hskip))
    rw [if_pos hremoved, List.nil_append]
    cases piece with
    | char c => rw [stripPieces, if_neg hskip]
    | openTag inner =>
      rw [stripPieces, if_neg hskip]
      simp only [openSpans, if_pos hskip]
    | closeTag inner =>
      rw [stripPieces_closeTag_skipping hskip]
      dsimp only
      rw [openSpans_tail_of_skipping hskip]

end Steps

/-- The stripper keeps what the matching keeps, from any place on. -/
theorem stripPieces_eq_kept {before rest : List Piece} (hl : l = before ++ rest) :
    stripPieces vocabulary (openSpans vocabulary l (opened before)).1
        (openSpans vocabulary l (opened before)).2 rest =
      (((rest.zipIdx before.length).filter fun entry => ¬ Removed vocabulary l entry.2).map
        Prod.fst).flatMap text := by
  induction rest generalizing before with
  | nil => rfl
  | cons piece rest ih =>
    have hcons : l = before ++ [piece] ++ rest := by rw [hl, List.append_assoc, List.singleton_append]
    have hnext := ih hcons
    rw [List.length_append, List.length_singleton] at hnext
    rw [stripPieces_step hl, hnext, List.zipIdx_cons, List.filter_cons]
    split_ifs with hremoved <;> simp_all

/-- Removing markup is matching tags. The document has one division into span tags and characters;
of its pieces there remain, in order, those that are neither in a definition block nor a tag of an
unwrapped span. The document need not be well formed, nor the vocabulary sound. -/
theorem strip_eq_keptPieces (vocabulary : Vocabulary) (html : Text) :
    ∃ pieces, (∀ other, Divided html other ↔ other = pieces) ∧
      strip vocabulary html = (keptPieces vocabulary pieces).flatMap text := by
  refine ⟨scan html, fun other => divided_iff, ?_⟩
  exact @stripPieces_eq_kept vocabulary _ [] _ rfl

example : let html := "</span><span class=\"aiv-definition\">y<span class=\"aiv-definition-text\">z"
    (keptPieces {} (scan html.toList)).flatMap text = "</span>y".toList := by
  decide +kernel

end Gloss.Markup
