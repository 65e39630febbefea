import Gloss.Markup.Strip
import Gloss.Proofs.Markup.Scan
import Mathlib.Data.List.Infix

/-! Balanced span tags. Prose with balanced tags is skipped as a whole with the block it stands
in, and document text without tags of the vocabulary is kept as a whole. -/
namespace Gloss.Markup

namespace Piece

def isOpening : Piece → Bool
  | .openTag _ => true
  | _ => false

def isClosing : Piece → Bool
  | .closeTag _ => true
  | _ => false

def openTag? : Piece → Option Text
  | .openTag inner => some inner
  | _ => none

theorem mem_filterMap_openTag? {inner : Text} {l : List Piece} :
    inner ∈ l.filterMap openTag? ↔ .openTag inner ∈ l := by
  rw [List.mem_filterMap]
  constructor
  · rintro ⟨piece, hmem, hinner⟩
    cases piece with
    | openTag inside =>
      cases hinner
      exact hmem
    | char c => cases hinner
    | closeTag inside => cases hinner
  · exact fun hmem => ⟨.openTag inner, hmem, rfl⟩

/-- Number of spans that are open behind some pieces, given the number before them. There is none
when a closing tag finds no open span. -/
def depth? (depth : Nat) : List Piece → Option Nat
  | [] => some depth
  | .char _ :: rest => depth? depth rest
  | .openTag _ :: rest => depth? (depth + 1) rest
  | .closeTag _ :: rest =>
    match depth with
    | 0 => none
    | outer + 1 => depth? outer rest

theorem depth?_append (depth : Nat) (l m : List Piece) :
    depth? depth (l ++ m) = (depth? depth l).bind (depth? · m) := by
  induction l generalizing depth with
  | nil => rfl
  | cons piece l ih =>
    cases piece with
    | char c => exact ih depth
    | openTag inner => exact ih (depth + 1)
    | closeTag inner =>
      cases depth with
      | zero => rfl
      | succ outer => exact ih outer

theorem depth?_add {depth behind : Nat} {l : List Piece} (h : depth? depth l = some behind)
    (more : Nat) : depth? (depth + more) l = some (behind + more) := by
  induction l generalizing depth with
  | nil =>
    cases h
    rfl
  | cons piece l ih =>
    cases piece with
    | char c => exact ih h
    | openTag inner =>
      rw [depth?, Nat.add_right_comm]
      exact ih h
    | closeTag inner =>
      cases depth with
      | zero => cases h
      | succ outer =>
        rw [Nat.add_right_comm, depth?]
        exact ih h

theorem depth?_chars (depth : Nat) (t : Text) : depth? depth (t.map .char) = some depth := by
  induction t with
  | nil => rfl
  | cons c t ih => exact ih

/-- There is a depth when no leading part closes more spans than are open. -/
theorem depth?_of_counts {depth : Nat} {l : List Piece}
    (h : ∀ m, m <+: l → m.countP isClosing ≤ depth + m.countP isOpening) :
    ∃ behind, depth? depth l = some behind ∧
      behind + l.countP isClosing = depth + l.countP isOpening := by
  induction l generalizing depth with
  | nil => exact ⟨depth, rfl, rfl⟩
  | cons piece l ih =>
    have hrest (m : List Piece) (hm : m <+: l) :=
      h (piece :: m) (List.cons_prefix_cons.mpr ⟨rfl, hm⟩)
    cases piece with
    | char c =>
      simp only [List.countP_cons, isClosing, isOpening, Bool.false_eq_true, if_false] at hrest ⊢
      exact ih hrest
    | openTag inner =>
      simp only [List.countP_cons, isClosing, isOpening, Bool.false_eq_true, if_false,
        if_true] at hrest ⊢
      have hinside (m : List Piece) (hm : m <+: l) :
          m.countP isClosing ≤ depth + 1 + m.countP isOpening := by
        have := hrest m hm
        omega
      obtain ⟨behind, hbehind, hcount⟩ := ih hinside
      exact ⟨behind, hbehind, by omega⟩
    | closeTag inner =>
      simp only [List.countP_cons, isClosing, isOpening, Bool.false_eq_true, if_false,
        if_true] at hrest ⊢
      cases depth with
      | zero =>
        have := hrest [] List.nil_prefix
        simp at this
      | succ outer =>
        have houtside (m : List Piece) (hm : m <+: l) :
            m.countP isClosing ≤ outer + m.countP isOpening := by
          have := hrest m hm
          omega
        obtain ⟨behind, hbehind, hcount⟩ := ih houtside
        exact ⟨behind, hbehind, by omega⟩

end Piece

open Piece

/-- Every leading part of the text has at least as many opening as closing span tags, and the whole
has as many of both. -/
structure Balanced (t : Text) : Prop where
  leading (s : Text) : s <+: t → (scan s).countP isClosing ≤ (scan s).countP isOpening
  whole : (scan t).countP isClosing = (scan t).countP isOpening

instance (t : Text) : Decidable (Balanced t) :=
  decidable_of_iff ((∀ s ∈ t.inits, (scan s).countP isClosing ≤ (scan s).countP isOpening) ∧
    (scan t).countP isClosing = (scan t).countP isOpening)
    ⟨fun h => ⟨fun s hs => h.1 s ((List.mem_inits s t).mpr hs), h.2⟩,
      fun h => ⟨fun s hs => h.leading s ((List.mem_inits s t).mp hs), h.whole⟩⟩

theorem Balanced.depth? {t : Text} (h : Balanced t) : depth? 0 (scan t) = some 0 := by
  have hleading (m : List Piece) (hm : m <+: scan t) :
      m.countP isClosing ≤ 0 + m.countP isOpening := by
    obtain ⟨hscan, hpart⟩ := scan_flatMap_text hm
    rw [Nat.zero_add, ← hscan]
    exact h.leading _ hpart
  obtain ⟨behind, hbehind, hcount⟩ := depth?_of_counts hleading
  rw [h.whole, Nat.zero_add, Nat.add_eq_right] at hcount
  rw [hbehind, hcount]

section Stripping
variable {vocabulary : Vocabulary} {stack : List OpenSpan}

theorem stripPieces_block {inner : Text} (h : SpanRole.ofTag vocabulary inner = .block)
    (rest : List Piece) : stripPieces vocabulary stack 0 (.openTag inner :: rest) =
      stripPieces vocabulary stack 1 rest := by
  rw [stripPieces, if_pos rfl, h]

theorem stripPieces_wrapper {inner : Text} (h : SpanRole.ofTag vocabulary inner = .wrapper)
    (rest : List Piece) : stripPieces vocabulary stack 0 (.openTag inner :: rest) =
      stripPieces vocabulary (.unwrapped :: stack) 0 rest := by
  rw [stripPieces, if_pos rfl, h]

theorem stripPieces_endBlock (inner : Text) (rest : List Piece) :
    stripPieces vocabulary stack 1 (.closeTag inner :: rest) =
      stripPieces vocabulary stack 0 rest := rfl

theorem stripPieces_endWrapper (inner : Text) (rest : List Piece) :
    stripPieces vocabulary (.unwrapped :: stack) 0 (.closeTag inner :: rest) =
      stripPieces vocabulary stack 0 rest := rfl

/-- Inside a block everything up to its closing tag is dropped. -/
theorem stripPieces_skipping {depth behind : Nat} {l : List Piece}
    (h : depth? depth l = some behind) (rest : List Piece) :
    stripPieces vocabulary stack (depth + 1) (l ++ rest) =
      stripPieces vocabulary stack (behind + 1) rest := by
  induction l generalizing depth with
  | nil =>
    cases h
    rfl
  | cons piece l ih =>
    cases piece with
    | char c => exact ih h
    | openTag inner => exact ih h
    | closeTag inner =>
      cases depth with
      | zero => cases h
      | succ outer => exact ih h

theorem stripPieces_chars (t : Text) (rest : List Piece) :
    stripPieces vocabulary stack 0 (t.map .char ++ rest) =
      t ++ stripPieces vocabulary stack 0 rest := by
  induction t with
  | nil => rfl
  | cons c t ih =>
    rw [List.map_cons, List.cons_append, stripPieces, if_pos rfl, ih]
    rfl

/-- Where all open spans are the document's own, pieces without tags of the vocabulary are kept,
and the open spans behind them are the document's own again. -/
theorem stripPieces_foreign {l : List Piece}
    (hl : ∀ inner, .openTag inner ∈ l → SpanRole.ofTag vocabulary inner = .foreign)
    (hstack : ∀ span ∈ stack, span = .kept) (rest : List Piece) :
    ∃ behind, (∀ span ∈ behind, span = .kept) ∧
      stripPieces vocabulary stack 0 (l ++ rest) =
        l.flatMap text ++ stripPieces vocabulary behind 0 rest := by
  induction l generalizing stack with
  | nil => exact ⟨stack, hstack, rfl⟩
  | cons piece l ih =>
    have hrest (inner : Text) (hmem : .openTag inner ∈ l) :=
      hl inner (List.mem_cons_of_mem piece hmem)
    cases piece with
    | char c =>
      obtain ⟨behind, hbehind, he⟩ := ih hrest hstack
      refine ⟨behind, hbehind, ?_⟩
      rw [List.cons_append, stripPieces, if_pos rfl, he]
      rfl
    | openTag inner =>
      obtain ⟨behind, hbehind, he⟩ := ih hrest (List.forall_mem_cons.mpr ⟨rfl, hstack⟩)
      refine ⟨behind, hbehind, ?_⟩
      rw [List.cons_append, stripPieces, if_pos rfl, hl inner List.mem_cons_self]
      simp [he]
    | closeTag inner =>
      cases stack with
      | nil =>
        obtain ⟨behind, hbehind, he⟩ := ih hrest hstack
        refine ⟨behind, hbehind, ?_⟩
        rw [List.cons_append, stripPieces, if_pos rfl, he]
        simp
      | cons span outer =>
        obtain ⟨rfl, houter⟩ := List.forall_mem_cons.mp hstack
        obtain ⟨behind, hbehind, he⟩ := ih hrest houter
        refine ⟨behind, hbehind, ?_⟩
        rw [List.cons_append, stripPieces, if_pos rfl, he]
        simp

/-- No opening span tag of the text has a structural class of the vocabulary. -/
def FreeOf (vocabulary : Vocabulary) (t : Text) : Prop :=
  ∀ inner, .openTag inner ∈ scan t → firstClass? inner ∉
    [some vocabulary.containerClass, some vocabulary.textClass, some vocabulary.referenceClass]

instance (vocabulary : Vocabulary) (t : Text) : Decidable (FreeOf vocabulary t) :=
  decidable_of_iff (∀ inner ∈ (scan t).filterMap openTag?, firstClass? inner ∉
    [some vocabulary.containerClass, some vocabulary.textClass, some vocabulary.referenceClass])
    (forall_congr' fun _ => imp_congr_left mem_filterMap_openTag?)

theorem FreeOf.ofTag {t inner : Text} (h : FreeOf vocabulary t) (hmem : .openTag inner ∈ scan t) :
    SpanRole.ofTag vocabulary inner = .foreign := by
  have hclass := h inner hmem
  unfold SpanRole.ofTag
  cases hfirst : firstClass? inner with
  | none => rfl
  | some name => simp_all

theorem FreeOf.of_part {s t : Text} (h : FreeOf vocabulary t) (hs : s <:+: t) :
    FreeOf vocabulary s := by
  intro inner hmem
  rcases isTag_of_mem_scan hmem with ⟨c, hc⟩ | ⟨inside, htag⟩
  · cases hc
  · exact h inner (mem_scan_of_part htag hs hmem)

def Untagged (t : Text) : Prop :=
  ∀ piece ∈ scan t, piece.isOpening = false ∧ piece.isClosing = false

instance (t : Text) : Decidable (Untagged t) :=
  inferInstanceAs (Decidable (∀ piece ∈ scan t, _))

private theorem eq_chars {l : List Piece}
    (h : ∀ piece ∈ l, piece.isOpening = false ∧ piece.isClosing = false) :
    l = (l.flatMap text).map .char := by
  induction l with
  | nil => rfl
  | cons piece l ih =>
    obtain ⟨hpiece, hl⟩ := List.forall_mem_cons.mp h
    cases piece with
    | char c => exact congrArg (.char c :: ·) (ih hl)
    | openTag inner => cases hpiece.1
    | closeTag inner => cases hpiece.2

theorem Untagged.scan_eq {t : Text} (h : Untagged t) : scan t = t.map .char := by
  have hscan := eq_chars h
  rwa [flatMap_text_scan] at hscan

end Stripping
end Gloss.Markup
