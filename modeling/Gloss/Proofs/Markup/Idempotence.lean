import Gloss.Proofs.Markup.Attributes
import Gloss.Proofs.Markup.Rendering

/-! Removing markup once is enough. What remains of a text whose brackets all belong to tags is made
of whole tags too, and none of them is a tag that the stripper acts on. -/
namespace Gloss.Markup
open Piece

/-- Every `<` is followed by a `>`, before the next `<` and before the end of the text. -/
def NoStrayBracket (t : Text) : Prop :=
  ∀ behind, '<' :: behind <:+ t → '>' ∈ behind.takeWhile (· != '<')

/-- A text made of tags and of characters outside tags. -/
inductive Bracketed : Text → Prop where
  | nil : Bracketed []
  | char {c : Char} {rest : Text} (hc : c ≠ '<') (hrest : Bracketed rest) : Bracketed (c :: rest)
  | tag {inner rest : Text} (hinner : '<' ∉ inner ∧ '>' ∉ inner) (hrest : Bracketed rest) :
      Bracketed ('<' :: inner ++ ['>'] ++ rest)

instance (t : Text) : Decidable (NoStrayBracket t) :=
  decidable_of_iff (∀ tail ∈ t.tails, tail.head? = some '<' →
      '>' ∈ tail.tail.takeWhile (· != '<')) <| by
    constructor
    · intro h behind hsuffix
      exact h _ ((List.mem_tails _ _).mpr hsuffix) rfl
    · intro h tail htail hhead
      obtain ⟨behind, rfl⟩ := List.head?_eq_some_iff.mp hhead
      exact h behind ((List.mem_tails _ _).mp htail)

theorem NoStrayBracket.of_suffix {s t : Text} (h : NoStrayBracket t) (hs : s <:+ t) :
    NoStrayBracket s :=
  fun behind hbehind => h behind (hbehind.trans hs)

theorem NoStrayBracket.exists_tag {rest : Text} (h : NoStrayBracket ('<' :: rest)) :
    ∃ inner behind, rest = inner ++ '>' :: behind ∧ '<' ∉ inner ∧ '>' ∉ inner := by
  have hclose := h rest List.suffix_rfl
  obtain ⟨inner, more, hsplit, hinner⟩ := List.eq_append_cons_of_mem hclose
  refine ⟨inner, more ++ rest.dropWhile (· != '<'), ?_, ?_, hinner⟩
  · conv_lhs => rw [← List.takeWhile_append_dropWhile (p := (· != '<')) (l := rest), hsplit]
    rw [List.append_assoc, List.cons_append]
  · intro hmem
    have hopen : '<' ∈ rest.takeWhile (· != '<') := hsplit ▸ List.mem_append_left _ hmem
    have hne := List.all_eq_true.mp List.all_takeWhile _ hopen
    simp at hne

theorem NoStrayBracket.bracketed {t : Text} (h : NoStrayBracket t) : Bracketed t := by
  induction hlength : t.length using Nat.strong_induction_on generalizing t with
  | h length ih =>
    cases t with
    | nil => exact .nil
    | cons c rest =>
      by_cases hc : c = '<'
      · subst hc
        obtain ⟨inner, behind, rfl, hinner⟩ := h.exists_tag
        rw [List.append_cons, ← List.cons_append, ← List.cons_append] at h hlength ⊢
        refine .tag hinner (ih behind.length ?_ (h.of_suffix (List.suffix_append _ _)) rfl)
        rw [← hlength, List.length_append]
        exact Nat.lt_add_of_pos_left (Nat.zero_lt_succ _)
      · refine .char hc (ih rest.length ?_ (h.of_suffix (List.suffix_cons c rest)) rfl)
        rw [← hlength]
        exact Nat.lt_succ_self _

/-- What stands between brackets is a span tag, or is read as its characters. -/
theorem isTag_or_reads {inner : Text} (hinner : '<' ∉ inner ∧ '>' ∉ inner) :
    (∃ piece, IsTag inner piece) ∨
      Reads ('<' :: inner ++ ['>']) (('<' :: inner ++ ['>']).map .char) := by
  by_cases htag : ∃ piece, IsTag inner piece
  · exact .inl htag
  · have hstray (more : Text) : spanTag? (inner ++ ['>'] ++ more) = none := by
      refine Option.eq_none_iff_forall_ne_some.mpr ?_
      rintro ⟨piece, behind⟩ hsome
      obtain ⟨inner', he, htag'⟩ := spanTag?_eq_some_iff.mp hsome
      have hsplit := splitTag_eq_some_iff.mpr ⟨he, htag'.1⟩
      rw [List.append_assoc, List.singleton_append,
        splitTag_eq_some_iff.mpr ⟨rfl, hinner⟩] at hsplit
      cases hsplit
      exact htag ⟨piece, htag'⟩
    exact .inr (.of_stray hstray (List.not_mem_append hinner.1 (by decide)))

variable {vocabulary : Vocabulary}

theorem ofTag_eq_foreign_iff {inner : Text} : SpanRole.ofTag vocabulary inner = .foreign ↔
    firstClass? inner ∉ [some vocabulary.containerClass, some vocabulary.textClass,
      some vocabulary.referenceClass] := by
  unfold SpanRole.ofTag
  cases firstClass? inner with
  | none => simp
  | some name =>
    dsimp only
    split_ifs <;> simp_all

theorem freeOf_iff {t : Text} : FreeOf vocabulary t ↔
    ∀ inner, .openTag inner ∈ scan t → SpanRole.ofTag vocabulary inner = .foreign :=
  forall_congr' fun _ => imp_congr_right fun _ => ofTag_eq_foreign_iff.symm

theorem FreeOf.append {s t : Text} {l : List Piece} (hs : Reads s l)
    (hl : ∀ inner, .openTag inner ∈ l → SpanRole.ofTag vocabulary inner = .foreign)
    (ht : FreeOf vocabulary t) : FreeOf vocabulary (s ++ t) := by
  rw [freeOf_iff] at ht ⊢
  intro inner hmem
  rw [hs, List.mem_append] at hmem
  exact hmem.elim (hl inner) (ht inner)

theorem FreeOf.append_chars {s t : Text} (hs : Reads s (s.map .char)) (ht : FreeOf vocabulary t) :
    FreeOf vocabulary (s ++ t) := by
  refine ht.append hs fun inner hmem => ?_
  obtain ⟨c, -, he⟩ := List.mem_map.mp hmem
  cases he

theorem FreeOf.append_closeTag {inner t : Text} (htag : IsTag inner (.closeTag inner))
    (ht : FreeOf vocabulary t) : FreeOf vocabulary ((closeTag inner).text ++ t) := by
  refine ht.append (Reads.of_isTag htag) fun inside hmem => ?_
  cases List.mem_singleton.mp hmem

/-- What the stripper leaves has no tag that it would act on, wherever it began. -/
theorem freeOf_stripPieces {t : Text} (h : Bracketed t) (stack : List OpenSpan) (skipping : Nat) :
    FreeOf vocabulary (stripPieces vocabulary stack skipping (scan t)) := by
  induction h generalizing stack skipping with
  | nil =>
    rw [scan_nil, stripPieces]
    intro inner hmem
    rw [scan_nil] at hmem
    cases hmem
  | @char c rest hc hrest ih =>
    have hreads : Reads [c] [.char c] := fun more => scan_cons_of_ne hc more
    rw [scan_cons_of_ne hc, stripPieces]
    split
    · exact (ih stack 0).append_chars hreads
    · exact ih stack skipping
  | @tag inner rest hinner hrest ih =>
    rcases isTag_or_reads hinner with ⟨piece, htag⟩ | hreads
    · rw [Reads.of_isTag htag, List.singleton_append]
      rcases htag.2 with ⟨-, rfl⟩ | ⟨-, -, rfl⟩
      · rw [stripPieces.eq_def]
        dsimp only
        split
        · split
          · exact ih _ 0
          · exact (ih _ 0).append_closeTag htag
          · exact (ih _ 0).append_closeTag htag
        · exact ih stack _
      · rw [stripPieces]
        split
        · split
          · exact ih stack 1
          · exact ih _ 0
          · next hrole =>
            refine (ih _ 0).append (Reads.of_isTag htag) fun inside hmem => ?_
            cases List.mem_singleton.mp hmem
            exact hrole
        · exact ih stack _
    · rw [hreads]
      cases skipping with
      | zero =>
        rw [stripPieces_chars]
        exact (ih stack 0).append_chars hreads
      | succ depth =>
        rw [stripPieces_skipping (depth?_chars depth _)]
        exact ih stack _

/-- Where every bracket belongs to a tag, removing markup twice is removing it once. Spans need not
match, and a block need not end. -/
theorem strip_strip (vocabulary : Vocabulary) {html : Text} (h : NoStrayBracket html) :
    strip vocabulary (strip vocabulary html) = strip vocabulary html :=
  strip_of_freeOf (freeOf_stripPieces h.bracketed [] 0)

/-- A closing tag that finds no span, a span of the document around a wrapper that is left open, and
a block without an end. -/
theorem strip_strip_unbalanced :
    let html := ("</span><b><span class=\"kop\">a<span class=\"aiv-definition\">b</span></span>" ++
      "</span ><span class=\"aiv-definition-text\">c<i>").toList
    NoStrayBracket html ∧ strip {} (strip {} html) = strip {} html ∧
      strip {} html = "</span><b><span class=\"kop\">ab</span></span >".toList := by
  intro html
  have h : NoStrayBracket html := by decide +kernel
  refine ⟨h, strip_strip {} h, ?_⟩
  decide +kernel

/-- Behind a stray bracket, what stood behind a block can become a tag. -/
example : let html := "<<span class=\"aiv-definition-text\"></span>span class=\"aiv-definition\">a".toList
    strip {} html = "<span class=\"aiv-definition\">a".toList ∧ strip {} (strip {} html) = ['a'] := by
  decide +kernel

end Gloss.Markup
