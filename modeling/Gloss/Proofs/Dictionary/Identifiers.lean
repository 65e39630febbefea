import Gloss.Dictionary.Identifier
import Gloss.Proofs.Text.Fold

/-! Identifiers as words joined by underscores. An identifier is made of the runs of letters and
digits of the case fold, and of nothing else, so that it is its own identifier and gives the runs
back. -/
namespace Gloss.Identifier
open Text

def IsAlphanumeric (c : Char) : Prop :=
  'a' ≤ c ∧ c ≤ 'z' ∨ '0' ≤ c ∧ c ≤ '9'

instance : DecidablePred IsAlphanumeric :=
  fun _ => inferInstanceAs (Decidable (_ ∨ _))

/-- The maximal runs of letters and digits, in order: what stands between the other characters. -/
def runs (t : Text) : List Text :=
  (t.splitOnP (¬ IsAlphanumeric ·)).filter (!·.isEmpty)

structure IsWord (word : Text) : Prop where
  ne_nil : word ≠ []
  alphanumeric : ∀ c ∈ word, IsAlphanumeric c

/-- A word, and any number of further words with an underscore before each. -/
def IsNormal (t : Text) : Prop :=
  ∃ (first : Text) (later : List Text), IsWord first ∧ (∀ word ∈ later, IsWord word) ∧
    t = first ++ later.flatMap ('_' :: ·)

section Kept
variable {c : Char}

theorem isKept_iff : isKept c = true ↔ IsAlphanumeric c := by
  have hlower : c.isLower = true ↔ 'a' ≤ c ∧ c ≤ 'z' :=
    Bool.and_eq_true_iff.trans (and_congr decide_eq_true_iff decide_eq_true_iff)
  have hdigit : c.isDigit = true ↔ '0' ≤ c ∧ c ≤ '9' :=
    Bool.and_eq_true_iff.trans (and_congr decide_eq_true_iff decide_eq_true_iff)
  rw [isKept, Bool.or_eq_true_iff, hlower, hdigit, IsAlphanumeric]

theorem IsWord.kept {word : Text} (h : IsWord word) : ∀ c ∈ word, isKept c = true :=
  fun c hc => isKept_iff.mpr (h.alphanumeric c hc)

theorem runs_eq (t : Text) : runs t = (t.splitOnP (!isKept ·)).filter (!·.isEmpty) := by
  have hkept : (fun c => decide (¬ IsAlphanumeric c)) = (!isKept ·) := by
    funext c
    rw [Bool.eq_iff_iff]
    simp [← isKept_iff]
  rw [runs, hkept]

private theorem toNat_of_isLower (h : c.isLower = true) :
    'a'.toNat ≤ c.toNat ∧ c.toNat ≤ 'z'.toNat := by
  obtain ⟨hlow, hhigh⟩ := Bool.and_eq_true_iff.mp h
  exact ⟨UInt32.le_iff_toNat_le.mp (of_decide_eq_true hlow),
    UInt32.le_iff_toNat_le.mp (of_decide_eq_true hhigh)⟩

theorem toNat_of_isKept (h : isKept c = true) : '0'.toNat ≤ c.toNat ∧ c.toNat ≤ 'z'.toNat := by
  have hbounds : '0'.toNat ≤ 'a'.toNat ∧ '9'.toNat ≤ 'z'.toNat := by decide
  rcases Bool.or_eq_true_iff.mp h with hlower | hdigit
  · obtain ⟨hlow, hhigh⟩ := toNat_of_isLower hlower
    exact ⟨Nat.le_trans hbounds.1 hlow, hhigh⟩
  · obtain ⟨hlow, hhigh⟩ := Char.isDigit_iff_toNat.mp hdigit
    exact ⟨hlow, Nat.le_trans hhigh hbounds.2⟩

private theorem toLower_of_isKept : ∀ code : Fin 0x80,
    isKept (Char.ofNat code) = true → (Char.ofNat code).toLower = Char.ofNat code := by
  decide

theorem lower_of_isKept (h : isKept c = true) : lower c = [c] := by
  have hascii : c.toNat < 0x80 := Nat.lt_of_le_of_lt (toNat_of_isKept h).2 (by decide)
  have hlower := toLower_of_isKept ⟨c.toNat, hascii⟩
  rw [Char.ofNat_toNat] at hlower
  rw [lower, if_pos hascii, hlower h]

theorem IsWord.foldCase_eq {word : Text} (h : IsWord word) : foldCase word = word := by
  have hlower : foldCase word = word.flatMap fun c => [c] :=
    List.flatMap_congr fun c hc => lower_of_isKept (h.kept c hc)
  rw [hlower, List.flatMap_singleton']

theorem IsNormal.foldCase_eq {t : Text} (h : IsNormal t) : foldCase t = t := by
  obtain ⟨first, later, hfirst, hlater, rfl⟩ := h
  rw [foldCase_append, hfirst.foldCase_eq]
  congr 1
  induction later with
  | nil => rfl
  | cons word later ih =>
    obtain ⟨hword, hlater⟩ := List.forall_mem_cons.mp hlater
    have hunderscore : lower '_' = ['_'] := rfl
    rw [List.flatMap_cons, foldCase_append, foldCase_cons, hunderscore, hword.foldCase_eq, ih hlater]
    rfl

end Kept

section Runs

theorem runs_cons_of_not_kept {c : Char} (h : isKept c = false) (t : Text) :
    runs (c :: t) = runs t := by
  rw [runs_eq, runs_eq, List.splitOnP_cons_eq_if_modifyHead, h]
  rfl

theorem runs_dropWhile (t : Text) : runs (t.dropWhile (!isKept ·)) = runs t := by
  induction t with
  | nil => rfl
  | cons c t ih =>
    rw [List.dropWhile_cons]
    split
    · next h => rw [ih, runs_cons_of_not_kept (by simpa using h)]
    · rfl

private theorem kept_of_mem_splitOnP {t part : Text} (h : part ∈ t.splitOnP (!isKept ·)) :
    ∀ c ∈ part, isKept c = true := by
  induction t generalizing part with
  | nil =>
    rw [List.splitOnP_nil, List.mem_singleton] at h
    rw [h]
    exact List.forall_mem_nil _
  | cons a t ih =>
    rw [List.splitOnP_cons_eq_if_modifyHead] at h
    split at h
    · rcases List.mem_cons.mp h with rfl | h
      · exact List.forall_mem_nil _
      · exact ih h
    · next ha =>
      cases hsplit : t.splitOnP (!isKept ·) with
      | nil => exact absurd hsplit (List.splitOnP_ne_nil _ _)
      | cons head tail =>
        rw [hsplit] at h ih
        rcases List.mem_cons.mp h with rfl | h
        · exact List.forall_mem_cons.mpr ⟨by simpa using ha, ih List.mem_cons_self⟩
        · exact ih (List.mem_cons_of_mem head h)

theorem isWord_of_mem_runs {t word : Text} (h : word ∈ runs t) : IsWord word := by
  rw [runs_eq] at h
  obtain ⟨hpart, hne⟩ := List.mem_filter.mp h
  exact ⟨by simpa using hne, fun c hc => isKept_iff.mp (kept_of_mem_splitOnP hpart c hc)⟩

theorem runs_join {first : Text} {later : List Text} (hfirst : IsWord first)
    (hlater : ∀ word ∈ later, IsWord word) :
    runs (first ++ later.flatMap ('_' :: ·)) = first :: later := by
  have hplain {word : Text} (h : IsWord word) : ∀ c ∈ word, (!isKept c) = false :=
    fun c hc => by simp [h.kept c hc]
  have hfilled {word : Text} (h : IsWord word) (parts : List Text) :
      (word :: parts).filter (!·.isEmpty) = word :: parts.filter (!·.isEmpty) :=
    List.filter_cons_of_pos (by simp [h.ne_nil])
  induction later generalizing first with
  | nil =>
    rw [List.flatMap_nil, List.append_nil, runs_eq, List.splitOnP_eq_singleton (hplain hfirst),
      hfilled hfirst, List.filter_nil]
  | cons word later ih =>
    obtain ⟨hword, hlater⟩ := List.forall_mem_cons.mp hlater
    rw [List.flatMap_cons, List.cons_append, runs_eq,
      List.splitOnP_append_cons_of_forall_mem (hplain hfirst) '_' rfl, hfilled hfirst]
    rw [← ih hword hlater, runs_eq]

theorem intercalate_cons (first : Text) (later : List Text) :
    ['_'].intercalate (first :: later) = first ++ later.flatMap ('_' :: ·) := by
  induction later generalizing first with
  | nil => rw [List.intercalate_singleton, List.flatMap_nil, List.append_nil]
  | cons word later ih =>
    rw [List.intercalate_cons_cons, ih, List.append_assoc]
    rfl

/-- With a gap before it every run gets an underscore. Without one the first part, which may be
empty, goes on with the word before the text. -/
private theorem squeeze_eq (t : Text) : ∃ head tail, t.splitOnP (!isKept ·) = head :: tail ∧
    squeeze false t = head ++ (tail.filter (!·.isEmpty)).flatMap ('_' :: ·) ∧
    squeeze true t = (runs t).flatMap ('_' :: ·) := by
  induction t with
  | nil => exact ⟨[], [], rfl, rfl, rfl⟩
  | cons c t ih =>
    obtain ⟨head, tail, hsplit, hfalse, htrue⟩ := ih
    by_cases hc : isKept c = true
    · have hsplit' : (c :: t).splitOnP (!isKept ·) = (c :: head) :: tail := by
        rw [List.splitOnP_cons_eq_if_modifyHead, hc, hsplit]
        rfl
      refine ⟨c :: head, tail, hsplit', ?_, ?_⟩
      · rw [squeeze, if_pos hc, hfalse]
        rfl
      · rw [squeeze, if_pos hc, hfalse, runs_eq, hsplit']
        rfl
    · rw [Bool.not_eq_true] at hc
      refine ⟨[], head :: tail, ?_, ?_, ?_⟩
      · rw [List.splitOnP_cons_eq_if_modifyHead, hc, hsplit]
        rfl
      · rw [squeeze, hc, ← hsplit, ← runs_eq]
        exact htrue
      · rw [runs_cons_of_not_kept hc, squeeze, hc]
        exact htrue

/-- An identifier is made of the runs of the case fold. -/
theorem ofTerm_eq_intercalate (term : Text) :
    ofTerm term = ['_'].intercalate (runs (foldCase term)) := by
  rw [ofTerm, ← runs_dropWhile]
  have hhead := List.head?_dropWhile_not (!isKept ·) (foldCase term)
  cases hkept : (foldCase term).dropWhile (!isKept ·) with
  | nil => rfl
  | cons c t =>
    rw [hkept] at hhead
    have hc : isKept c = true := by simpa using hhead
    obtain ⟨head, tail, hsplit, hsqueeze, -⟩ := squeeze_eq t
    have hruns : runs (c :: t) = (c :: head) :: tail.filter (!·.isEmpty) := by
      rw [runs_eq, List.splitOnP_cons_eq_if_modifyHead, hc, hsplit]
      rfl
    rw [hruns, intercalate_cons, squeeze, if_pos hc, hsqueeze]
    rfl

end Runs

theorem IsNormal.ofTerm_eq {t : Text} (h : IsNormal t) : ofTerm t = t := by
  rw [ofTerm_eq_intercalate, h.foldCase_eq]
  obtain ⟨first, later, hfirst, hlater, rfl⟩ := h
  rw [runs_join hfirst hlater, intercalate_cons]

/-- An identifier is normal, unless the term has nothing to keep, and has the runs of the term. -/
theorem ofTerm_cases (term : Text) :
    ofTerm term = [] ∧ runs (foldCase term) = [] ∨
      IsNormal (ofTerm term) ∧ runs (ofTerm term) = runs (foldCase term) := by
  rw [ofTerm_eq_intercalate]
  cases hruns : runs (foldCase term) with
  | nil => exact .inl ⟨rfl, rfl⟩
  | cons first later =>
    have hwords : ∀ word ∈ first :: later, IsWord word :=
      fun word hword => isWord_of_mem_runs (hruns ▸ hword)
    obtain ⟨hfirst, hlater⟩ := List.forall_mem_cons.mp hwords
    rw [intercalate_cons]
    exact .inr ⟨⟨first, later, hfirst, hlater, rfl⟩, runs_join hfirst hlater⟩

theorem ofTerm_eq_nil_or_isNormal (term : Text) : ofTerm term = [] ∨ IsNormal (ofTerm term) :=
  (ofTerm_cases term).imp And.left And.left

theorem runs_ofTerm (term : Text) : runs (ofTerm term) = runs (foldCase term) := by
  rcases ofTerm_cases term with ⟨hempty, hruns⟩ | ⟨-, hruns⟩
  · rw [hempty, hruns]
    rfl
  · exact hruns

/-- Deriving an identifier brings a text into its normal form: the runs of letters and digits of
its case fold, joined by single underscores. The texts that are left as they are, the empty one apart,
are the normal ones, and two terms have one identifier when they have the same runs. -/
theorem ofTerm_normal_form :
    (∀ x, ofTerm x = ['_'].intercalate (runs (foldCase x))) ∧
    (∀ x, ofTerm x = [] ∨ IsNormal (ofTerm x)) ∧
    (∀ x, ofTerm x = x ↔ x = [] ∨ IsNormal x) ∧
    (∀ x, ofTerm (ofTerm x) = ofTerm x) ∧
    ∀ x y, ofTerm x = ofTerm y ↔ runs (foldCase x) = runs (foldCase y) := by
  have hfixed (x : Text) (hx : x = [] ∨ IsNormal x) : ofTerm x = x := by
    rcases hx with rfl | hnormal
    · rfl
    · exact hnormal.ofTerm_eq
  refine ⟨ofTerm_eq_intercalate, ofTerm_eq_nil_or_isNormal, ?_, ?_, ?_⟩
  · intro x
    constructor
    · intro hx
      have hcases := ofTerm_eq_nil_or_isNormal x
      rwa [hx] at hcases
    · exact hfixed x
  · exact fun x => hfixed _ (ofTerm_eq_nil_or_isNormal x)
  · intro x y
    constructor
    · intro he
      rw [← runs_ofTerm x, he, runs_ofTerm y]
    · intro he
      rw [ofTerm_eq_intercalate, he, ofTerm_eq_intercalate]

example : ofTerm "  e-Mail (İd)_".toList = "e_mail_i_d".toList := by
  decide +kernel

end Gloss.Identifier
