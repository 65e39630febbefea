import Gloss.Proofs.Markup.Vocabulary

/-! Escaped text read back. An ampersand in it begins an entity and nothing else, so one pass over
the entities gives the text back, whatever entities the text itself holds. -/
namespace Gloss.Markup

def entities : List Text :=
  ["&amp;".toList, "&lt;".toList, "&gt;".toList, "&quot;".toList, "&#39;".toList]

/-- The text with its entities replaced, in one pass from left to right. What a replacement gives
is not read again. -/
def unescape : Text → Text
  | '&' :: 'a' :: 'm' :: 'p' :: ';' :: rest => '&' :: unescape rest
  | '&' :: 'l' :: 't' :: ';' :: rest => '<' :: unescape rest
  | '&' :: 'g' :: 't' :: ';' :: rest => '>' :: unescape rest
  | '&' :: 'q' :: 'u' :: 'o' :: 't' :: ';' :: rest => '"' :: unescape rest
  | '&' :: '#' :: '3' :: '9' :: ';' :: rest => '\'' :: unescape rest
  | c :: rest => c :: unescape rest
  | [] => []

variable {c : Char} {t behind : Text}

@[simp] theorem escape_nil : escape [] = [] := rfl

@[simp] theorem escape_cons (c : Char) (t : Text) : escape (c :: t) = escapeChar c ++ escape t :=
  List.flatMap_cons

@[simp] theorem escape_append (s t : Text) : escape (s ++ t) = escape s ++ escape t :=
  List.flatMap_append

/-- A delimiter is written as an entity, which holds no second ampersand; any other character is
written as it is. -/
theorem escapeChar_cases (c : Char) :
    (∃ name, escapeChar c = '&' :: name ∧ '&' :: name ∈ entities ∧ '&' ∉ name) ∨
      escapeChar c = [c] ∧ c ≠ '&' := by
  unfold escapeChar
  split
  · exact .inl ⟨_, rfl, by decide, by decide⟩
  · exact .inl ⟨_, rfl, by decide, by decide⟩
  · exact .inl ⟨_, rfl, by decide, by decide⟩
  · exact .inl ⟨_, rfl, by decide, by decide⟩
  · exact .inl ⟨_, rfl, by decide, by decide⟩
  · next hamp _ _ _ _ => exact .inr ⟨rfl, hamp⟩

theorem unescape_cons (h : c ≠ '&') (t : Text) : unescape (c :: t) = c :: unescape t := by
  rw [unescape]
  all_goals
    intro rest hamp
    exact absurd hamp h

theorem unescape_escapeChar (c : Char) (t : Text) :
    unescape (escapeChar c ++ t) = c :: unescape t := by
  unfold escapeChar
  split
  · rfl
  · rfl
  · rfl
  · rfl
  · rfl
  · next hamp _ _ _ _ => exact unescape_cons hamp t

theorem unescape_escape_append (s t : Text) : unescape (escape s ++ t) = s ++ unescape t := by
  induction s with
  | nil => rfl
  | cons c s ih => rw [escape_cons, List.append_assoc, unescape_escapeChar, ih, List.cons_append]

theorem unescape_escape (t : Text) : unescape (escape t) = t := by
  have h := unescape_escape_append t []
  rwa [List.append_nil, unescape, List.append_nil] at h

theorem escape_injective : Function.Injective escape :=
  Function.LeftInverse.injective unescape_escape

private theorem suffix_of_suffix_append {before : Text} (hc : c ∉ before)
    (h : c :: behind <:+ before ++ t) : c :: behind <:+ t := by
  induction before with
  | nil => exact h
  | cons d before ih =>
    rw [List.mem_cons, not_or] at hc
    rcases List.suffix_cons_iff.mp h with he | h
    · exact absurd (List.cons.inj he).1 hc.1
    · exact ih hc.2 h

theorem exists_entity_of_suffix (h : '&' :: behind <:+ escape t) :
    ∃ entity ∈ entities, entity <+: '&' :: behind := by
  induction t with
  | nil => simp at h
  | cons c t ih =>
    rw [escape_cons] at h
    rcases escapeChar_cases c with ⟨name, hc, hentity, hname⟩ | ⟨hc, hne⟩
    · rw [hc, List.cons_append] at h
      rcases List.suffix_cons_iff.mp h with he | h
      · exact ⟨_, hentity, escape t, he.symm⟩
      · exact ih (suffix_of_suffix_append hname h)
    · rw [hc] at h
      exact ih (suffix_of_suffix_append (by simpa using hne.symm) h)

/-- Escaping loses nothing and leaves no delimiter. Of the five delimiters only the ampersand stands
in escaped text, and only where an entity begins; reading the entities gives the text back, so
different texts are escaped differently. -/
theorem escape_lossless (x y : Text) :
    (∀ c ∈ ['"', '\'', '<', '>'], c ∉ escape x) ∧
    (∀ before behind, escape x = before ++ '&' :: behind →
      ∃ entity ∈ entities, entity <+: '&' :: behind) ∧
    unescape (escape x) = x ∧
    (escape x = escape y ↔ x = y) ∧
    escape (x ++ y) = escape x ++ escape y := by
  refine ⟨fun c hc => not_mem_escape hc, ?_, unescape_escape x, escape_injective.eq_iff,
    escape_append x y⟩
  intro before behind he
  exact exists_entity_of_suffix ⟨before, he.symm⟩

example : escape "&lt; <".toList = "&amp;lt; &lt;".toList ∧
    unescape "&amp;lt; &lt;".toList = "&lt; <".toList := by decide

end Gloss.Markup
