import Gloss.Text.Blank
import Gloss.Text.CaseFold
import Mathlib.Data.List.Induction
import Mathlib.Data.List.Nodup
import Mathlib.Tactic.SplitIfs

/-! Byte offsets determine a cut, and case folding works character by character. Keeping the first
text of each case fold is the rule by which entries and patterns are registered. -/
namespace Gloss.Text

theorem byteLength_pos {t : Text} (h : t ≠ []) : 0 < byteLength t := by
  cases t with
  | nil => exact absurd rfl h
  | cons c t =>
    have := Char.utf8Size_pos c
    simp only [byteLength_cons]
    omega

theorem append_inj_of_byteLength {s s' t t' : Text} (h : s ++ t = s' ++ t')
    (hb : byteLength s = byteLength s') : s = s' ∧ t = t' := by
  have hs := splitAtByte_byteLength s t
  rw [h, hb, splitAtByte_byteLength s' t'] at hs
  exact ⟨(congrArg Prod.fst hs).symm, (congrArg Prod.snd hs).symm⟩

@[simp] theorem foldCase_nil : foldCase [] = [] := rfl

@[simp] theorem foldCase_cons (c : Char) (t : Text) : foldCase (c :: t) = lower c ++ foldCase t :=
  List.flatMap_cons

@[simp] theorem foldCase_append (s t : Text) : foldCase (s ++ t) = foldCase s ++ foldCase t :=
  List.flatMap_append

theorem lower_ne_nil (c : Char) : lower c ≠ [] := by
  unfold lower
  split_ifs <;> simp

@[simp] theorem foldCase_eq_nil_iff (t : Text) : foldCase t = [] ↔ t = [] := by
  cases t with
  | nil => simp
  | cons c t => simp [lower_ne_nil]

theorem foldCase_infix_of_mem {c : Char} {t : Text} (h : c ∈ t) :
    foldCase [c] <:+: foldCase t := by
  obtain ⟨before, behind, rfl⟩ := List.append_of_mem h
  refine ⟨foldCase before, foldCase behind, ?_⟩
  simp only [foldCase_append, foldCase_cons, foldCase_nil, List.append_nil, List.append_assoc]

section Keeping
variable {α : Type} (text : α → Text)

def keepNew (kept : List α) (item : α) : List α :=
  if foldCase (text item) ∈ kept.map (foldCase ∘ text) then kept else kept ++ [item]

/-- The items of a stream whose case fold differs from that of every kept earlier one. -/
def keepFirst (stream : List α) : List α :=
  stream.foldl (keepNew text) []

variable {text}

theorem keepNew_of_taken {kept : List α} {item : α}
    (h : foldCase (text item) ∈ kept.map (foldCase ∘ text)) : keepNew text kept item = kept :=
  if_pos h

theorem keepNew_of_new {kept : List α} {item : α}
    (h : foldCase (text item) ∉ kept.map (foldCase ∘ text)) :
    keepNew text kept item = kept ++ [item] :=
  if_neg h

theorem keepFirst_concat (stream : List α) (item : α) :
    keepFirst text (stream ++ [item]) = keepNew text (keepFirst text stream) item := by
  simp [keepFirst]

theorem nodup_map_concat {β : Type} {f : α → β} {l : List α} {a : α} (h : (l.map f).Nodup)
    (hnew : f a ∉ l.map f) : ((l ++ [a]).map f).Nodup := by
  rw [List.map_append, List.map_singleton, ← List.concat_eq_append]
  exact List.Nodup.concat hnew h

theorem keepNew_nodup {kept : List α} (h : (kept.map (foldCase ∘ text)).Nodup) (item : α) :
    ((keepNew text kept item).map (foldCase ∘ text)).Nodup := by
  by_cases hm : foldCase (text item) ∈ kept.map (foldCase ∘ text)
  · rwa [keepNew_of_taken hm]
  · rw [keepNew_of_new hm]
    exact nodup_map_concat h hm

theorem keepFirst_nodup (stream : List α) :
    ((keepFirst text stream).map (foldCase ∘ text)).Nodup := by
  induction stream using List.reverseRecOn with
  | nil => simp [keepFirst]
  | append_singleton stream item ih =>
    rw [keepFirst_concat]
    exact keepNew_nodup ih item

theorem keepFirst_sublist (stream : List α) : (keepFirst text stream).Sublist stream := by
  induction stream using List.reverseRecOn with
  | nil => simp [keepFirst]
  | append_singleton stream item ih =>
    rw [keepFirst_concat]
    by_cases hm : foldCase (text item) ∈ (keepFirst text stream).map (foldCase ∘ text)
    · rw [keepNew_of_taken hm]
      exact ih.trans (List.sublist_append_left _ _)
    · rw [keepNew_of_new hm]
      exact ih.append (List.Sublist.refl _)

theorem keepFirst_of_nodup {stream : List α} (h : (stream.map (foldCase ∘ text)).Nodup) :
    keepFirst text stream = stream := by
  induction stream using List.reverseRecOn with
  | nil => rfl
  | append_singleton stream item ih =>
    rw [List.map_append, List.nodup_append] at h
    obtain ⟨hs, -, hd⟩ := h
    rw [keepFirst_concat, ih hs, keepNew_of_new]
    exact fun hm => hd _ hm _ (by simp) rfl

/-- The first item with a case fold is the one that is kept. -/
theorem find?_keepFirst (stream : List α) (x : Text) :
    (keepFirst text stream).find? (fun item => foldCase (text item) == x) =
      stream.find? (fun item => foldCase (text item) == x) := by
  induction stream using List.reverseRecOn with
  | nil => rfl
  | append_singleton stream item ih =>
    rw [keepFirst_concat, List.find?_append, ← ih]
    by_cases hm : foldCase (text item) ∈ (keepFirst text stream).map (foldCase ∘ text)
    · rw [keepNew_of_taken hm]
      by_cases hx : foldCase (text item) = x
      · obtain ⟨kept, hkept, he⟩ := List.mem_map.mp hm
        have hfound : ((keepFirst text stream).find?
            (fun item => foldCase (text item) == x)).isSome = true :=
          List.find?_isSome.mpr ⟨kept, hkept, beq_iff_eq.mpr (he.trans hx)⟩
        rw [Option.or_of_isSome hfound]
      · rw [List.find?_singleton, if_neg (by simpa using hx), Option.or_none]
    · rw [keepNew_of_new hm, List.find?_append]

/-- A stream and what is kept of it have the same case folds. -/
theorem mem_map_keepFirst_iff {stream : List α} {x : Text} :
    x ∈ (keepFirst text stream).map (foldCase ∘ text) ↔ x ∈ stream.map (foldCase ∘ text) := by
  have hfind (l : List α) : (l.find? (fun item => foldCase (text item) == x)).isSome = true ↔
      x ∈ l.map (foldCase ∘ text) := by
    simp [List.find?_isSome]
  rw [← hfind, find?_keepFirst, hfind]

end Keeping

end Gloss.Text
