import Gloss.Markup.Render
import Gloss.Markup.Strip
import Gloss.Proofs.Text.Trimming
import Mathlib.Data.Option.Basic

/-! What a vocabulary without faults promises. Class names and escaped texts hold no delimiters, and
the stripper reads the class name that a tag was written with. -/
namespace Gloss
open Text

namespace Vocabulary

/-- One class name: not empty, without white space and without delimiters. -/
def IsClassName (name : Text) : Prop :=
  name ≠ [] ∧ ∀ c ∈ name, isWhite c = false ∧ c ∉ delimiters

structure Sound (vocabulary : Vocabulary) : Prop where
  isClassName {name : Text} : name ∈ vocabulary.classes.map Prod.snd → IsClassName name
  container_ne_text : vocabulary.containerClass ≠ vocabulary.textClass
  container_ne_reference : vocabulary.containerClass ≠ vocabulary.referenceClass
  text_ne_reference : vocabulary.textClass ≠ vocabulary.referenceClass

theorem classFault?_eq_none_iff {field : String} {name : Text} :
    classFault? field name = none ↔ IsClassName name := by
  have hchars : name.all isClassChar = true ↔ ∀ c ∈ name, isWhite c = false ∧ c ∉ delimiters := by
    simp [isClassChar, List.all_eq_true]
  unfold classFault? IsClassName
  rw [← hchars]
  cases name with
  | nil => simp
  | cons c name => simp

theorem sound_of_fault? {vocabulary : Vocabulary} (h : vocabulary.fault? = none) :
    vocabulary.Sound := by
  unfold fault? at h
  split at h
  · cases h
  · next hclasses =>
    rw [List.findSome?_eq_none_iff] at hclasses
    split at h
    · cases h
    · next hdiffer =>
      simp only [Bool.or_eq_true, beq_iff_eq, not_or] at hdiffer
      obtain ⟨⟨hct, hcr⟩, htr⟩ := hdiffer
      refine ⟨?_, hct, hcr, htr⟩
      intro name hname
      obtain ⟨entry, hentry, rfl⟩ := List.mem_map.mp hname
      exact classFault?_eq_none_iff.mp (hclasses entry hentry)

theorem IsClassName.not_mem {name : Text} (h : IsClassName name) {c : Char}
    (hc : c ∈ delimiters) : c ∉ name :=
  fun hmem => (h.2 c hmem).2 hc

theorem IsClassName.firstWord? {name : Text} (h : IsClassName name) :
    firstWord? name = some name := by
  have hword := firstWord?_append (List.forall_mem_nil _) h.1 fun c hc => (h.2 c hc).1
  rwa [List.nil_append] at hword

end Vocabulary

namespace Markup

theorem not_mem_escape {t : Text} {c : Char} (hc : c ∈ ['"', '\'', '<', '>']) :
    c ∉ escape t := by
  have hchar (d : Char) : c ∉ escapeChar d := by
    simp only [List.mem_cons, List.not_mem_nil, or_false] at hc
    unfold escapeChar
    rcases hc with rfl | rfl | rfl | rfl <;> split <;> simp_all [eq_comm]
  intro hmem
  obtain ⟨d, -, hd⟩ := List.mem_flatMap.mp hmem
  exact hchar d hd

def quotedWord? (rest : Text) : Option Text := do
  guard (rest.contains '"')
  firstWord? (rest.takeWhile (· != '"'))

theorem quotedWord?_append_quote {s rest : Text} (hs : '"' ∉ s) :
    quotedWord? (s ++ '"' :: rest) = firstWord? s := by
  have hguard : guard ((s ++ '"' :: rest).contains '"' = true) = some () :=
    (Option.guard_eq_some' ()).mpr (by simp)
  have hplain (c : Char) (hc : c ∈ s) : (c != '"') = true := by
    rw [bne_iff_ne]
    rintro rfl
    exact hs hc
  have hword : (s ++ '"' :: rest).takeWhile (· != '"') = s := by
    rw [List.takeWhile_append_of_pos hplain]
    simp
  rw [quotedWord?, hguard, hword]
  rfl

/-- The inside of an opening tag with a class, which is its first attribute. -/
def classTag (name behind : Text) : Text :=
  ['s', 'p', 'a', 'n', ' ', 'c', 'l', 'a', 's', 's', '=', '"'] ++ name ++ '"' :: behind

theorem firstClass?_classTag {name : Text} (h : Vocabulary.IsClassName name) (behind : Text) :
    firstClass? (classTag name behind) = some name := by
  have hafter : after? classStart (classTag name behind) = some (name ++ '"' :: behind) := rfl
  have hquoted : firstClass? (classTag name behind) = quotedWord? (name ++ '"' :: behind) := by
    rw [firstClass?, hafter]
    rfl
  rw [hquoted, quotedWord?_append_quote (h.not_mem (by decide)), h.firstWord?]

end Markup
end Gloss
