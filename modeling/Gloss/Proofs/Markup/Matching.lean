import Gloss.Proofs.Markup.Balance
import Mathlib.Data.List.Induction

/-! Which closing tag belongs to which opening tag. A closing tag closes the latest span that is
open before it; one that finds no open span closes nothing. Places count pieces. -/
namespace Gloss.Markup.Piece

/-- The pieces of a document, told without a scanner: a span tag wherever one is complete, and
single characters between the tags. -/
inductive Divided : Text → List Piece → Prop where
  | nil : Divided [] []
  | tag {inner rest : Text} {piece : Piece} {l : List Piece} (htag : IsTag inner piece)
      (hrest : Divided rest l) : Divided ('<' :: inner ++ '>' :: rest) (piece :: l)
  | char {c : Char} {rest : Text} {l : List Piece}
      (hplain : ∀ inner piece behind, IsTag inner piece → c :: rest ≠ '<' :: inner ++ '>' :: behind)
      (hrest : Divided rest l) : Divided (c :: rest) (.char c :: l)

theorem divided_scan (t : Text) : Divided t (scan t) := by
  induction t using scan.induct with
  | case1 =>
    rw [scan_nil]
    exact .nil
  | case2 rest piece behind h ih =>
    obtain ⟨inner, rfl, htag⟩ := spanTag?_eq_some_iff.mp h
    rw [scan_spanTag h]
    exact .tag htag ih
  | case3 rest h ih =>
    rw [scan_stray h]
    refine .char ?_ ih
    intro inner piece behind htag he
    have hsome := spanTag?_eq_some_iff.mpr ⟨inner, (List.cons.inj he).2, htag⟩
    rw [h] at hsome
    cases hsome
  | case4 c rest h ih =>
    rw [scan_cons_of_ne h]
    refine .char ?_ ih
    intro inner piece behind _ he
    exact h (List.cons.inj he).1

/-- There is one way to divide a document. -/
theorem divided_iff {t : Text} {l : List Piece} : Divided t l ↔ l = scan t := by
  constructor
  · intro h
    induction h with
    | nil => exact scan_nil.symm
    | tag htag _ ih => rw [scan_tag htag, ih]
    | @char c rest l hplain _ ih =>
      rw [ih]
      by_cases hc : c = '<'
      · subst hc
        refine (scan_stray (Option.eq_none_iff_forall_ne_some.mpr ?_)).symm
        rintro ⟨piece, behind⟩ hsome
        obtain ⟨inner, rfl, htag⟩ := spanTag?_eq_some_iff.mp hsome
        exact hplain inner piece behind htag rfl
      · exact (scan_cons_of_ne hc rest).symm
  · rintro rfl
    exact divided_scan t

/-- The places of the spans that are open behind some pieces, the latest first. -/
def opened (l : List Piece) : List Nat :=
  l.zipIdx.foldl (fun places (piece, place) =>
    match piece with
    | .char _ => places
    | .openTag _ => place :: places
    | .closeTag _ => places.tail) []

/-- The closing tag at `stop` closes the span that the tag at `start` opens. -/
def Matched (l : List Piece) (start stop : Nat) : Prop :=
  l[stop]?.any isClosing = true ∧ (opened (l.take stop)).head? = some start

instance (l : List Piece) (start stop : Nat) : Decidable (Matched l start stop) :=
  inferInstanceAs (Decidable (_ ∧ _))

/-- The place lies in the span that is opened at `start`: not before the opening tag, and not
behind the tag that closes it. -/
def Spans (l : List Piece) (start place : Nat) : Prop :=
  start ≤ place ∧ ∀ stop < place, ¬ Matched l start stop

instance (l : List Piece) (start place : Nat) : Decidable (Spans l start place) :=
  inferInstanceAs (Decidable (_ ∧ _))

variable {l : List Piece} {i j k : Nat}

theorem opened_concat (l : List Piece) (piece : Piece) :
    opened (l ++ [piece]) = match piece with
      | .char _ => opened l
      | .openTag _ => l.length :: opened l
      | .closeTag _ => (opened l).tail := by
  rw [opened, List.zipIdx_append, List.foldl_append, Nat.zero_add]
  rfl

theorem lt_length_of_mem_opened (h : i ∈ opened l) : i < l.length := by
  induction l using List.reverseRecOn with
  | nil => cases h
  | append_singleton l piece ih =>
    rw [opened_concat] at h
    rw [List.length_append, List.length_singleton]
    cases piece with
    | char c => exact Nat.lt_succ_of_lt (ih h)
    | openTag inner =>
      rcases List.mem_cons.mp h with rfl | h
      · exact Nat.lt_succ_self _
      · exact Nat.lt_succ_of_lt (ih h)
    | closeTag inner => exact Nat.lt_succ_of_lt (ih (List.mem_of_mem_tail h))

theorem opened_nodup (l : List Piece) : (opened l).Nodup := by
  induction l using List.reverseRecOn with
  | nil => exact List.nodup_nil
  | append_singleton l piece ih =>
    rw [opened_concat]
    cases piece with
    | char c => exact ih
    | openTag inner =>
      exact List.nodup_cons.mpr ⟨fun h => Nat.lt_irrefl _ (lt_length_of_mem_opened h), ih⟩
    | closeTag inner => exact ih.sublist (List.tail_sublist _)

theorem Matched.lt (h : Matched l i j) : i < j := by
  have hlt := lt_length_of_mem_opened (List.mem_of_mem_head? h.2)
  exact Nat.lt_of_lt_of_le hlt (List.length_take_le _ _)

/-- What was open before a span that is still open is open as well. -/
theorem opened_suffix (h : i ∈ opened l) : i :: opened (l.take i) <:+ opened l := by
  induction l using List.reverseRecOn with
  | nil => cases h
  | append_singleton l piece ih =>
    have htake (hi : i ∈ opened l) : (l ++ [piece]).take i = l.take i :=
      List.take_append_of_le_length (Nat.le_of_lt (lt_length_of_mem_opened hi))
    rw [opened_concat] at h ⊢
    cases piece with
    | char c =>
      rw [htake h]
      exact ih h
    | openTag inner =>
      rcases List.mem_cons.mp h with rfl | h
      · rw [List.take_left]
      · rw [htake h]
        exact (ih h).trans (List.suffix_cons _ _)
    | closeTag inner =>
      have hi := List.mem_of_mem_tail h
      rw [htake hi]
      have hnodup := opened_nodup l
      have hsuffix := ih hi
      cases hopened : opened l with
      | nil =>
        rw [hopened] at hi
        cases hi
      | cons top outer =>
        rw [hopened] at h hnodup hsuffix
        rcases List.suffix_cons_iff.mp hsuffix with he | hs
        · obtain ⟨rfl, -⟩ := List.cons.inj he
          exact absurd h (List.nodup_cons.mp hnodup).1
        · exact hs

private theorem mem_opened_concat_iff {piece : Piece} :
    i ∈ opened (l ++ [piece]) ↔ i = l.length ∧ piece.isOpening = true ∨
      i ∈ opened l ∧ ¬ (piece.isClosing = true ∧ (opened l).head? = some i) := by
  rw [opened_concat]
  cases piece with
  | char c => simp [isOpening, isClosing]
  | openTag inner => simp [isOpening, isClosing]
  | closeTag inner =>
    have hnodup := opened_nodup l
    cases hopened : opened l with
    | nil => simp [isOpening]
    | cons top outer =>
      rw [hopened] at hnodup
      have htop := (List.nodup_cons.mp hnodup).1
      simp only [List.tail_cons, List.mem_cons, isOpening, isClosing, List.head?_cons,
        Option.some.injEq, Bool.false_eq_true, and_false, false_or, true_and]
      constructor
      · intro hmem
        exact ⟨.inr hmem, fun he => htop (he ▸ hmem)⟩
      · rintro ⟨hmem | hmem, hne⟩
        · exact absurd hmem.symm hne
        · exact hmem

private theorem matched_getElem_iff (h : j < l.length) :
    Matched l i j ↔ l[j].isClosing = true ∧ (opened (l.take j)).head? = some i := by
  unfold Matched
  rw [List.getElem?_eq_getElem h, Option.any_some]

/-- A span is open as long as no closing tag matches its opening tag. -/
theorem mem_opened_take_iff {inner : Text} (hopens : l[i]? = some (.openTag inner)) (hlt : i < k)
    (hle : k ≤ l.length) : i ∈ opened (l.take k) ↔ ∀ stop < k, ¬ Matched l i stop := by
  induction k, hlt using Nat.le_induction with
  | base =>
    have hi : i < l.length := hle
    have hlen : (l.take i).length = i := List.length_take_of_le (Nat.le_of_lt hi)
    have hpiece : l[i] = .openTag inner := by
      rw [List.getElem?_eq_getElem hi] at hopens
      exact Option.some.inj hopens
    rw [← List.take_append_getElem hi, hpiece, mem_opened_concat_iff, hlen]
    constructor
    · intro _ stop hstop h
      have := h.lt
      omega
    · intro _
      exact .inl ⟨rfl, rfl⟩
  | succ k hlt ih =>
    have hk : k < l.length := hle
    have hlen : (l.take k).length = k := List.length_take_of_le (Nat.le_of_lt hk)
    have hne : i ≠ k := by omega
    rw [← List.take_append_getElem hk, mem_opened_concat_iff, hlen, ih (Nat.le_of_lt hk),
      ← matched_getElem_iff hk]
    simp only [hne, false_and, false_or, Nat.lt_succ_iff_lt_or_eq, or_imp, forall_and, forall_eq]

end Gloss.Markup.Piece
