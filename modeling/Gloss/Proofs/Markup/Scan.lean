import Gloss.Markup.Piece

/-! Scanning across seams. A tag holds no brackets, so what is inserted in front of a `<` neither
completes nor takes over a tag. -/
namespace Gloss.Markup.Piece

/-- The piece is the span tag with this inside. -/
def IsTag (inner : Text) (piece : Piece) : Prop :=
  ('<' ∉ inner ∧ '>' ∉ inner) ∧
    (closesSpan inner = true ∧ piece = .closeTag inner ∨
      closesSpan inner = false ∧ opensSpan inner = true ∧ piece = .openTag inner)

theorem IsTag.text_eq {inner : Text} {piece : Piece} (h : IsTag inner piece) :
    piece.text = '<' :: inner ++ ['>'] := by
  rcases h.2 with ⟨-, rfl⟩ | ⟨-, -, rfl⟩ <;> rfl

private theorem noBracket_iff {inner : Text} :
    (∀ c ∈ inner, (c != '<' && c != '>') = true) ↔ '<' ∉ inner ∧ '>' ∉ inner := by
  simp only [Bool.and_eq_true, bne_iff_ne]
  constructor
  · intro h
    exact ⟨fun hm => (h _ hm).1 rfl, fun hm => (h _ hm).2 rfl⟩
  · rintro ⟨hopen, hclose⟩ c hc
    exact ⟨fun he => hopen (he ▸ hc), fun he => hclose (he ▸ hc)⟩

theorem splitTag_eq_some_iff {t inner rest : Text} :
    splitTag t = some (inner, rest) ↔ t = inner ++ '>' :: rest ∧ '<' ∉ inner ∧ '>' ∉ inner := by
  rw [← noBracket_iff]
  constructor
  · intro h
    unfold splitTag at h
    split at h
    · next tail hdrop =>
      cases h
      refine ⟨?_, fun c hc => List.all_eq_true.mp List.all_takeWhile c hc⟩
      rw [← hdrop, List.takeWhile_append_dropWhile]
    · cases h
  · rintro ⟨rfl, hinner⟩
    unfold splitTag
    rw [List.dropWhile_append_of_pos hinner, List.takeWhile_append_of_pos hinner]
    simp

theorem spanTag?_eq_some_iff {t rest : Text} {piece : Piece} :
    spanTag? t = some (piece, rest) ↔
      ∃ inner, t = inner ++ '>' :: rest ∧ IsTag inner piece := by
  constructor
  · intro h
    unfold spanTag? at h
    split at h
    · cases h
    · next inner tail hsplit =>
      obtain ⟨rfl, hinner⟩ := splitTag_eq_some_iff.mp hsplit
      refine ⟨inner, ?_⟩
      split at h
      · next hcloses =>
        cases h
        exact ⟨rfl, hinner, .inl ⟨hcloses, rfl⟩⟩
      · next hcloses =>
        split at h
        · next hopens =>
          cases h
          exact ⟨rfl, hinner, .inr ⟨Bool.eq_false_iff.mpr hcloses, hopens, rfl⟩⟩
        · cases h
  · rintro ⟨inner, rfl, hinner, htag⟩
    unfold spanTag?
    rw [splitTag_eq_some_iff.mpr ⟨rfl, hinner⟩]
    rcases htag with ⟨hcloses, rfl⟩ | ⟨hcloses, hopens, rfl⟩ <;> simp [*]

theorem scan_nil : scan [] = [] := by
  rw [scan]

theorem scan_cons_of_ne {c : Char} (h : c ≠ '<') (rest : Text) :
    scan (c :: rest) = .char c :: scan rest := by
  rw [scan, if_neg h]

theorem scan_stray {rest : Text} (h : spanTag? rest = none) :
    scan ('<' :: rest) = .char '<' :: scan rest := by
  rw [scan, if_pos rfl]
  split
  · next htag => simp [h] at htag
  · rfl

theorem scan_spanTag {rest behind : Text} {piece : Piece} (h : spanTag? rest = some (piece, behind)) :
    scan ('<' :: rest) = piece :: scan behind := by
  rw [scan, if_pos rfl]
  split
  · next htag =>
    cases h.symm.trans htag
    rfl
  · next htag => simp [h] at htag

theorem flatMap_text_scan (t : Text) : (scan t).flatMap text = t := by
  induction t using scan.induct with
  | case1 => rw [scan_nil, List.flatMap_nil]
  | case2 rest piece behind h ih =>
    obtain ⟨inner, rfl, htag⟩ := spanTag?_eq_some_iff.mp h
    rw [scan_spanTag h, List.flatMap_cons, ih, htag.text_eq]
    simp
  | case3 rest h ih =>
    rw [scan_stray h, List.flatMap_cons, ih]
    rfl
  | case4 c rest h ih =>
    rw [scan_cons_of_ne h, List.flatMap_cons, ih]
    rfl

theorem spanTag?_append {t rest : Text} {piece : Piece} (h : spanTag? t = some (piece, rest))
    (more : Text) : spanTag? (t ++ more) = some (piece, rest ++ more) := by
  obtain ⟨inner, rfl, htag⟩ := spanTag?_eq_some_iff.mp h
  exact spanTag?_eq_some_iff.mpr ⟨inner, by simp, htag⟩

/-- A tag that is not complete is not completed behind the next `<`. -/
theorem spanTag?_append_bracket {t : Text} (h : spanTag? t = none) (more : Text) :
    spanTag? (t ++ '<' :: more) = none := by
  refine Option.eq_none_iff_forall_ne_some.mpr ?_
  rintro ⟨piece, rest⟩ hsome
  obtain ⟨inner, he, htag⟩ := spanTag?_eq_some_iff.mp hsome
  rcases List.append_eq_append_iff.mp he with ⟨l, rfl, hl⟩ | ⟨l, rfl, hl⟩
  · cases l with
    | nil => simp at hl
    | cons c l =>
      obtain ⟨rfl, -⟩ := List.cons.inj hl
      exact htag.1.1 (by simp)
  · cases l with
    | nil => simp at hl
    | cons c l =>
      obtain ⟨rfl, -⟩ := List.cons.inj hl
      rw [spanTag?_eq_some_iff.mpr ⟨inner, rfl, htag⟩] at h
      cases h

/-- What stands before a `<` is scanned as if nothing followed. -/
theorem scan_append_bracket (t more : Text) :
    scan (t ++ '<' :: more) = scan t ++ scan ('<' :: more) := by
  induction t using scan.induct with
  | case1 => rw [scan_nil, List.nil_append, List.nil_append]
  | case2 rest piece behind h ih =>
    rw [List.cons_append, scan_spanTag (spanTag?_append h _), scan_spanTag h, ih,
      List.cons_append]
  | case3 rest h ih =>
    rw [List.cons_append, scan_stray (spanTag?_append_bracket h more), scan_stray h, ih,
      List.cons_append]
  | case4 c rest h ih =>
    rw [List.cons_append, scan_cons_of_ne h, scan_cons_of_ne h, ih, List.cons_append]

theorem scan_tag {inner : Text} {piece : Piece} (h : IsTag inner piece) (rest : Text) :
    scan ('<' :: inner ++ '>' :: rest) = piece :: scan rest :=
  scan_spanTag (spanTag?_eq_some_iff.mpr ⟨inner, rfl, h⟩)

/-- Leading pieces are the pieces of the text they make up. -/
theorem scan_flatMap_text {l : List Piece} {t : Text} (h : l <+: scan t) :
    scan (l.flatMap text) = l ∧ l.flatMap text <+: t := by
  induction t using scan.induct generalizing l with
  | case1 =>
    rw [scan_nil, List.prefix_nil] at h
    rw [h]
    exact ⟨scan_nil, List.prefix_rfl⟩
  | case2 rest piece behind hsome ih =>
    obtain ⟨inner, rfl, htag⟩ := spanTag?_eq_some_iff.mp hsome
    rw [scan_spanTag hsome] at h
    rcases List.prefix_cons_iff.mp h with rfl | ⟨l, rfl, hl⟩
    · exact ⟨scan_nil, List.nil_prefix⟩
    · obtain ⟨hscan, hpart⟩ := ih hl
      rw [List.flatMap_cons, htag.text_eq, List.append_assoc, List.singleton_append,
        scan_tag htag, hscan]
      exact ⟨rfl, (List.prefix_append_right_inj _).mpr (List.cons_prefix_cons.mpr ⟨rfl, hpart⟩)⟩
  | case3 rest hnone ih =>
    rw [scan_stray hnone] at h
    rcases List.prefix_cons_iff.mp h with rfl | ⟨l, rfl, hl⟩
    · exact ⟨scan_nil, List.nil_prefix⟩
    · obtain ⟨hscan, hpart⟩ := ih hl
      have hstray : spanTag? (l.flatMap text) = none := by
        refine Option.eq_none_iff_forall_ne_some.mpr ?_
        rintro ⟨piece, behind⟩ hsome
        obtain ⟨more, rfl⟩ := hpart
        rw [spanTag?_append hsome] at hnone
        cases hnone
      rw [List.flatMap_cons, text, List.singleton_append, scan_stray hstray, hscan]
      exact ⟨rfl, List.cons_prefix_cons.mpr ⟨rfl, hpart⟩⟩
  | case4 c rest hne ih =>
    rw [scan_cons_of_ne hne] at h
    rcases List.prefix_cons_iff.mp h with rfl | ⟨l, rfl, hl⟩
    · exact ⟨scan_nil, List.nil_prefix⟩
    · obtain ⟨hscan, hpart⟩ := ih hl
      rw [List.flatMap_cons, text, List.singleton_append, scan_cons_of_ne hne, hscan]
      exact ⟨rfl, List.cons_prefix_cons.mpr ⟨rfl, hpart⟩⟩

theorem isTag_of_mem_scan {t : Text} {piece : Piece} (h : piece ∈ scan t) :
    (∃ c, piece = .char c) ∨ ∃ inner, IsTag inner piece := by
  induction t using scan.induct with
  | case1 => simp [scan_nil] at h
  | case2 rest piece' behind hsome ih =>
    rw [scan_spanTag hsome, List.mem_cons] at h
    obtain ⟨inner, -, htag⟩ := spanTag?_eq_some_iff.mp hsome
    rcases h with rfl | h
    · exact .inr ⟨inner, htag⟩
    · exact ih h
  | case3 rest hnone ih =>
    rw [scan_stray hnone, List.mem_cons] at h
    rcases h with rfl | h
    · exact .inl ⟨_, rfl⟩
    · exact ih h
  | case4 c rest hne ih =>
    rw [scan_cons_of_ne hne, List.mem_cons] at h
    rcases h with rfl | h
    · exact .inl ⟨_, rfl⟩
    · exact ih h

/-- A document has the tags that stand anywhere in it, and no other tags. -/
theorem mem_scan_iff {t inner : Text} {piece : Piece} (htag : IsTag inner piece) :
    piece ∈ scan t ↔ ∃ before behind, t = before ++ '<' :: inner ++ '>' :: behind := by
  constructor
  · intro h
    obtain ⟨l, m, hlm⟩ := List.append_of_mem h
    refine ⟨l.flatMap text, m.flatMap text, ?_⟩
    rw [← flatMap_text_scan t, hlm, List.flatMap_append, List.flatMap_cons, htag.text_eq]
    simp
  · rintro ⟨before, behind, rfl⟩
    rw [List.append_assoc, List.cons_append, scan_append_bracket, ← List.cons_append, scan_tag htag]
    simp

theorem mem_scan_of_part {s t inner : Text} {piece : Piece} (htag : IsTag inner piece)
    (hs : s <:+: t) (h : piece ∈ scan s) : piece ∈ scan t := by
  obtain ⟨before, behind, rfl⟩ := (mem_scan_iff htag).mp h
  obtain ⟨l, m, rfl⟩ := hs
  exact (mem_scan_iff htag).mpr ⟨l ++ before, behind ++ m, by simp⟩

end Gloss.Markup.Piece
