import Gloss.Proofs.Markup.Balance
import Gloss.Proofs.Markup.Vocabulary
import Mathlib.Data.List.Chain

/-! Spans of the document itself, told by their attributes. A class is looked for as a run of
characters anywhere in the tag, so what counts is every name that ends in `class` and every value
that ends in `class=`. -/
namespace Gloss.Markup
open Text Piece

def isNameChar (c : Char) : Bool :=
  !isWhite c && !(['"', '\'', '=', '/'].contains c)

def isValueChar (c : Char) : Bool :=
  !(['<', '>', '"'].contains c)

/-- An attribute of a tag with the white space before it. Its value stands in double quotes. -/
structure Attribute where
  gap : Text := [' ']
  name : Text
  value : Text
  gap_ne_nil : gap ≠ [] := by decide
  gap_blank : gap.isBlank = true := by decide
  name_plain : name.all isNameChar = true := by decide
  value_plain : value.all isValueChar = true := by decide

def className : Text :=
  ['c', 'l', 'a', 's', 's']

namespace Attribute

def text (a : Attribute) : Text :=
  a.gap ++ a.name ++ ['=', '"'] ++ a.value ++ ['"']

theorem not_mem_gap (a : Attribute) {c : Char} (hc : isWhite c = false) : c ∉ a.gap := by
  intro hmem
  rw [List.all_eq_true.mp a.gap_blank c hmem] at hc
  cases hc

theorem isWhite_of_mem_name (a : Attribute) {c : Char} (hc : c ∈ a.name) : isWhite c = false := by
  have hplain := List.all_eq_true.mp a.name_plain c hc
  rw [isNameChar, Bool.and_eq_true, Bool.not_eq_true'] at hplain
  exact hplain.1

theorem quote_not_mem_name (a : Attribute) : '"' ∉ a.name := by
  intro hmem
  cases List.all_eq_true.mp a.name_plain _ hmem

theorem quote_not_mem_value (a : Attribute) : '"' ∉ a.value := by
  intro hmem
  cases List.all_eq_true.mp a.value_plain _ hmem

end Attribute

/-- The inside of an opening span tag with these attributes, and perhaps white space behind them. -/
def HasAttributes (inner : Text) (attributes : List Attribute) : Prop :=
  ∃ behind, behind.isBlank = true ∧
    inner = ['s', 'p', 'a', 'n'] ++ attributes.flatMap Attribute.text ++ behind

section Search
variable {p s rest : Text} {q : Char}

private theorem eq_of_append_cons {tail : Text} (hp : q ∉ p) (hs : q ∉ s)
    (h : p ++ q :: tail = s ++ q :: rest) : p = s ∧ tail = rest := by
  induction p generalizing s with
  | nil =>
    cases s with
    | nil => exact ⟨rfl, (List.cons.inj h).2⟩
    | cons c s => exact absurd ((List.cons.inj h).1 ▸ List.mem_cons_self) hs
  | cons a p ih =>
    cases s with
    | nil => exact absurd ((List.cons.inj h).1 ▸ List.mem_cons_self) hp
    | cons c s =>
      obtain ⟨rfl, he⟩ := List.cons.inj h
      rw [List.mem_cons, not_or] at hp hs
      obtain ⟨rfl, htail⟩ := ih hp.2 hs.2 he
      exact ⟨rfl, htail⟩

/-- A pattern that ends in a mark is found at the first mark, or behind it. -/
theorem after?_append_cons (hp : q ∉ p) (hs : q ∉ s) :
    after? (p ++ [q]) (s ++ q :: rest) =
      if p <:+ s then some rest else after? (p ++ [q]) rest := by
  induction s with
  | nil =>
    rw [List.nil_append, after?]
    cases p with
    | nil => simp [List.isPrefixOf?]
    | cons a p =>
      have hne : a ≠ q := fun he => hp (he ▸ List.mem_cons_self)
      simp [List.isPrefixOf?, hne]
  | cons c s ih =>
    have hs' : q ∉ s := fun hmem => hs (List.mem_cons_of_mem c hmem)
    rw [List.cons_append, after?]
    cases hfront : (p ++ [q]).isPrefixOf? (c :: (s ++ q :: rest)) with
    | some tail =>
      rw [List.isPrefixOf?_eq_some_iff_append_eq, List.append_assoc, ← List.cons_append] at hfront
      obtain ⟨hpattern, htail⟩ := eq_of_append_cons hp hs hfront
      rw [if_pos (hpattern ▸ List.suffix_rfl)]
      exact congrArg some htail
    | none =>
      have hne : p ≠ c :: s := by
        intro he
        have hfound : (p ++ [q]).isPrefixOf? (c :: (s ++ q :: rest)) = some rest :=
          List.isPrefixOf?_eq_some_iff_append_eq.mpr (by simp [he])
        rw [hfront] at hfound
        cases hfound
      simp only [ih hs', List.suffix_cons_iff, hne, false_or]

theorem after?_of_not_mem {t : Text} (ht : q ∉ t) : after? (p ++ [q]) t = none := by
  induction t with
  | nil => rw [after?, if_neg (by simp)]
  | cons c t ih =>
    rw [after?]
    cases hfront : (p ++ [q]).isPrefixOf? (c :: t) with
    | some tail =>
      rw [List.isPrefixOf?_eq_some_iff_append_eq] at hfront
      rw [← hfront] at ht
      simp at ht
    | none => exact ih fun hmem => ht (List.mem_cons_of_mem c hmem)

theorem suffix_append_cons_iff {c : Char} {before behind : Text} (hc : c ∉ p) :
    p <:+ before ++ c :: behind ↔ p <:+ behind := by
  constructor
  · intro h
    rcases List.suffix_or_suffix_of_suffix h (List.suffix_append before (c :: behind)) with hl | hl
    · rcases List.suffix_cons_iff.mp hl with rfl | hl
      · exact absurd List.mem_cons_self hc
      · exact hl
    · exact absurd (hl.subset List.mem_cons_self) hc
  · intro h
    exact List.suffix_append_of_suffix (h.trans (List.suffix_cons c behind))

theorem suffix_concat_concat_iff {c : Char} : p ++ [c] <:+ s ++ [c] ↔ p <:+ s := by
  rw [← List.reverse_prefix, List.reverse_append, List.reverse_append]
  simp

end Search

section Reading

theorem quotedWord?_of_not_mem {t : Text} (ht : '"' ∉ t) : quotedWord? t = none := by
  have hguard : guard (t.contains '"' = true) = (none : Option Unit) := by simp [ht, guard]
  rw [quotedWord?, hguard]
  rfl

theorem firstClass?_append_quote {s rest : Text} (hs : '"' ∉ s) :
    firstClass? (s ++ '"' :: rest) =
      if className ++ ['='] <:+ s then quotedWord? rest else firstClass? rest := by
  have hstart : classStart = className ++ ['='] ++ ['"'] := rfl
  unfold firstClass?
  rw [hstart, after?_append_cons (by decide) hs]
  split
  · rfl
  · rfl

theorem firstClass?_of_not_mem {t : Text} (ht : '"' ∉ t) : firstClass? t = none := by
  have hstart : classStart = className ++ ['='] ++ ['"'] := rfl
  rw [firstClass?, hstart, after?_of_not_mem ht]
  rfl

/-- What the stripper takes for the class of a tag with these attributes: the first word of a value
whose name ends in `class`, or the name behind a value that ends in `class=`. -/
def readClass? : List Attribute → Option Text
  | [] => none
  | a :: rest =>
    if className <:+ a.name then firstWord? a.value
    else if className ++ ['='] <:+ a.value then rest.head?.map (·.name ++ ['='])
    else readClass? rest

namespace Attribute

theorem className_suffix_iff (a : Attribute) (before : Text) :
    className ++ ['='] <:+ before ++ a.gap ++ a.name ++ ['='] ↔ className <:+ a.name := by
  obtain ⟨gap, white, hgap⟩ := (List.eq_nil_or_concat a.gap).resolve_left a.gap_ne_nil
  rw [List.concat_eq_append] at hgap
  have hwhite : white ∉ className := by
    have hplain : className.all (!isWhite ·) = true := by decide
    intro hmem
    have hwhite := List.all_eq_true.mp hplain white hmem
    rw [Bool.not_eq_true'] at hwhite
    exact a.not_mem_gap hwhite (by simp [hgap])
  rw [suffix_concat_concat_iff, hgap, ← List.append_assoc, List.append_assoc _ [white],
    List.singleton_append, suffix_append_cons_iff hwhite]

theorem firstWord?_name (a : Attribute) :
    firstWord? (a.gap ++ a.name ++ ['=']) = some (a.name ++ ['=']) := by
  rw [List.append_assoc]
  apply firstWord?_append (List.all_eq_true.mp a.gap_blank) (by simp)
  intro c hc
  rcases List.mem_append.mp hc with hc | hc
  · exact a.isWhite_of_mem_name hc
  · rw [List.mem_singleton.mp hc]
    decide

theorem text_append (a : Attribute) (before rest : Text) :
    before ++ (a.text ++ rest) =
      before ++ a.gap ++ a.name ++ ['='] ++ '"' :: (a.value ++ '"' :: rest) := by
  simp [text]

theorem quote_not_mem_append (a : Attribute) {before : Text} (hbefore : '"' ∉ before) :
    '"' ∉ before ++ a.gap ++ a.name ++ ['='] := by
  have hgap : '"' ∉ a.gap := a.not_mem_gap (by decide)
  simp [hbefore, hgap, a.quote_not_mem_name]

end Attribute

variable {attributes : List Attribute} {behind : Text}

/-- Behind a value that ends in `class=`, the next name is read with its equals sign. -/
theorem quotedWord?_attributes (hbehind : behind.isBlank = true) :
    quotedWord? (attributes.flatMap Attribute.text ++ behind) =
      attributes.head?.map (·.name ++ ['=']) := by
  cases attributes with
  | nil =>
    apply quotedWord?_of_not_mem
    intro hmem
    cases List.all_eq_true.mp hbehind _ hmem
  | cons a rest =>
    have htext := a.text_append [] (rest.flatMap Attribute.text ++ behind)
    rw [List.flatMap_cons, List.append_assoc, ← List.nil_append (a.text ++ _), htext,
      quotedWord?_append_quote (a.quote_not_mem_append List.not_mem_nil)]
    exact a.firstWord?_name

/-- The class that is read from a tag is told by its attributes. -/
theorem firstClass?_attributes {before : Text} (hbefore : '"' ∉ before)
    (hbehind : behind.isBlank = true) :
    firstClass? (before ++ attributes.flatMap Attribute.text ++ behind) =
      readClass? attributes := by
  induction attributes generalizing before with
  | nil =>
    apply firstClass?_of_not_mem
    rw [List.flatMap_nil, List.append_nil, List.mem_append]
    rintro (hmem | hmem)
    · exact hbefore hmem
    · cases List.all_eq_true.mp hbehind _ hmem
  | cons a rest ih =>
    have hrest : firstClass? (rest.flatMap Attribute.text ++ behind) = readClass? rest :=
      ih List.not_mem_nil
    rw [List.flatMap_cons, List.append_assoc, List.append_assoc, a.text_append,
      firstClass?_append_quote (a.quote_not_mem_append hbefore),
      quotedWord?_append_quote a.quote_not_mem_value,
      firstClass?_append_quote a.quote_not_mem_value, quotedWord?_attributes hbehind, hrest]
    simp only [a.className_suffix_iff, readClass?]

end Reading

section Foreign
variable {vocabulary : Vocabulary} {attributes : List Attribute}

def structuralClasses (vocabulary : Vocabulary) : List Text :=
  [vocabulary.containerClass, vocabulary.textClass, vocabulary.referenceClass]

/-- The attributes of a span of the document itself. No value of a name that ends in `class` begins
with a structural class, and a value that ends in `class=` stands before no name that is one but
for the equals sign. -/
structure Foreign (vocabulary : Vocabulary) (attributes : List Attribute) : Prop where
  names : ∀ a ∈ attributes, className <:+ a.name →
    firstWord? a.value ∉ (structuralClasses vocabulary).map some
  values : attributes.IsChain fun a b => className ++ ['='] <:+ a.value →
    b.name ++ ['='] ∉ structuralClasses vocabulary

theorem Foreign.tail {a : Attribute} (h : Foreign vocabulary (a :: attributes)) :
    Foreign vocabulary attributes where
  names b hb := h.names b (List.mem_cons_of_mem a hb)
  values := h.values.tail

theorem Foreign.readClass? (h : Foreign vocabulary attributes) :
    readClass? attributes ∉ (structuralClasses vocabulary).map some := by
  induction attributes with
  | nil => simp [Markup.readClass?]
  | cons a rest ih =>
    rw [Markup.readClass?]
    split
    · next hname => exact h.names a List.mem_cons_self hname
    · split
      · next hvalue =>
        cases rest with
        | nil => simp
        | cons b rest =>
          obtain ⟨hb, -⟩ := List.isChain_cons_cons.mp h.values
          intro hmem
          obtain ⟨name, hname, he⟩ := List.mem_map.mp hmem
          cases he
          exact hb hvalue hname
      · exact ih h.tail

theorem freeOf_of_foreign {html : Text} (h : ∀ inner, .openTag inner ∈ scan html →
      ∃ attributes, HasAttributes inner attributes ∧ Foreign vocabulary attributes) :
    FreeOf vocabulary html := by
  intro inner hmem
  obtain ⟨attributes, ⟨behind, hbehind, rfl⟩, hforeign⟩ := h inner hmem
  rw [firstClass?_attributes (by decide) hbehind]
  exact hforeign.readClass?

/-- A document without structural classes is left as it is, whatever else it holds. -/
theorem strip_of_freeOf {html : Text} (h : FreeOf vocabulary html) :
    strip vocabulary html = html := by
  have hstack : ∀ span ∈ ([] : List OpenSpan), span = .kept := List.forall_mem_nil _
  obtain ⟨behind, -, he⟩ := stripPieces_foreign (fun inner => h.ofTag) hstack []
  rw [List.append_nil, flatMap_text_scan, stripPieces, List.append_nil] at he
  exact he

/-- Spans of the document itself survive. -/
theorem strip_foreign_spans (vocabulary : Vocabulary) {html : Text}
    (h : ∀ inner, .openTag inner ∈ scan html →
      ∃ attributes, HasAttributes inner attributes ∧ Foreign vocabulary attributes) :
    strip vocabulary html = html :=
  strip_of_freeOf (freeOf_of_foreign h)

def foreignHtml : Text :=
  ("a < b </span><span class=\"kop aiv-definition\"\tdata-class=\"x\" title=\"class=\"" ++
    " lang=\"nl\" >c <spanner> d <span").toList

def foreignAttributes : List Attribute :=
  [{ name := className, value := "kop aiv-definition".toList },
   { gap := ['\t'], name := "data-class".toList, value := "x".toList },
   { name := "title".toList, value := "class=".toList },
   { name := "lang".toList, value := "nl".toList }]

theorem strip_foreign_spans_classes :
    (∀ inner, .openTag inner ∈ scan foreignHtml →
      ∃ attributes, HasAttributes inner attributes ∧ Foreign {} attributes) ∧
    strip {} foreignHtml = foreignHtml := by
  have htags : (scan foreignHtml).filterMap openTag? =
      [['s', 'p', 'a', 'n'] ++ foreignAttributes.flatMap Attribute.text ++ [' ']] := by
    decide +kernel
  have hforeign : Foreign {} foreignAttributes := ⟨by decide, by decide⟩
  have h : ∀ inner, .openTag inner ∈ scan foreignHtml →
      ∃ attributes, HasAttributes inner attributes ∧ Foreign {} attributes := by
    intro inner hmem
    rw [← mem_filterMap_openTag?, htags, List.mem_singleton] at hmem
    exact ⟨foreignAttributes, ⟨[' '], by decide, hmem⟩, hforeign⟩
  exact ⟨h, strip_foreign_spans {} h⟩

/-- A span with a class of the vocabulary in an attribute that only ends in `class` is taken for
one of the stripper's own. -/
theorem strip_foreign_spans_misread :
    let html := "a <span data-class=\"aiv-definition\">b</span>".toList
    ({} : Vocabulary).fault? = none ∧
    (∀ inner, .openTag inner ∈ scan html → ∃ attributes, HasAttributes inner attributes ∧
      ∀ a ∈ attributes, a.name = className →
        firstWord? a.value ∉ (structuralClasses {}).map some) ∧
    strip {} html = "a b".toList ∧ strip {} html ≠ html := by
  intro html
  have htags : (scan html).filterMap openTag? =
      ["span data-class=\"aiv-definition\"".toList] := by decide +kernel
  have hstripped : strip {} html = "a b".toList := by decide +kernel
  refine ⟨rfl, ?_, hstripped, ?_⟩
  · intro inner hmem
    rw [← mem_filterMap_openTag?, htags, List.mem_singleton] at hmem
    refine ⟨[{ name := "data-class".toList, value := "aiv-definition".toList }],
      ⟨[], by decide, ?_⟩, ?_⟩
    · rw [hmem]
      decide
    · decide
  · rw [hstripped]
    decide

end Foreign
end Gloss.Markup
