import Gloss.Command.Task
import Gloss.Proofs.Text.Lines
import Mathlib.Data.List.Basic

/-! The line protocol of the program. Each line of the input is a field, and each field gets an
answer with a line feed behind it. -/
namespace Gloss.Command
open Text

/-- Lines with what follows the last line feed, which is a line too unless it is empty. -/
def withTail (split : List (List UInt8) × List UInt8) : List (List UInt8) :=
  if split.2.isEmpty then split.1 else split.1 ++ [split.2]

theorem splitLines_append {bytes : List UInt8} (h : 10 ∉ bytes) (before rest : List UInt8) :
    splitLines before (bytes ++ rest) = splitLines (bytes.reverse ++ before) rest := by
  induction bytes generalizing before with
  | nil => rfl
  | cons byte bytes ih =>
    obtain ⟨hbyte, hbytes⟩ := List.ne_and_not_mem_of_not_mem_cons h
    rw [List.cons_append, splitLines, ih hbytes, List.reverse_cons, List.append_assoc]
    · rfl
    · exact fun he => hbyte he.symm

theorem splitLines_lineFeed {before : List UInt8} (h : before.head? ≠ some 13)
    (rest : List UInt8) : withTail (splitLines before (10 :: rest)) =
      before.reverse :: withTail (splitLines [] rest) := by
  rw [splitLines, if_neg h]
  unfold withTail
  dsimp only
  split_ifs <;> rfl

/-- What has been read of a line stands before the text that is still to be read. -/
theorem withTail_splitLines (begun text : Text) (hbegun : '\n' ∉ begun)
    (h : ∀ line ∈ linesOf (begun ++ text), line.getLast? ≠ some '\r') :
    withTail (splitLines (utf8 begun).reverse (utf8 text)) =
      (linesOf (begun ++ text)).map utf8 := by
  induction text generalizing begun with
  | nil =>
    rw [utf8_nil, splitLines, List.reverse_reverse, List.append_nil, withTail]
    dsimp only
    by_cases hempty : begun = []
    · rw [hempty]
      rfl
    · have hbytes : (utf8 begun).isEmpty = false := by
        rw [List.isEmpty_eq_false_iff]
        exact mt utf8_eq_nil_iff.mp hempty
      rw [hbytes, linesOf_line hbegun hempty]
      rfl
  | cons c text ih =>
    by_cases hc : c = '\n'
    · subst hc
      rw [linesOf_append_lineFeed hbegun, List.forall_mem_cons] at h
      have hreturn : (utf8 begun).reverse.head? ≠ some 13 := by
        rw [List.head?_reverse]
        exact mt getLast?_utf8 h.1
      have hrest := ih [] List.not_mem_nil h.2
      have hfeed : utf8 ('\n' :: text) = 10 :: utf8 text := rfl
      rw [linesOf_append_lineFeed hbegun, hfeed, splitLines_lineFeed hreturn,
        List.reverse_reverse, List.map_cons]
      exact congrArg (List.cons _) hrest
    · have hsingle : '\n' ∉ [c] := by
        intro hmem
        exact hc (List.mem_singleton.mp hmem).symm
      have hbytes : 10 ∉ String.utf8EncodeChar c := by
        simpa using lineFeed_not_mem_utf8 hsingle
      have hnext : '\n' ∉ begun ++ [c] := List.not_mem_append hbegun hsingle
      rw [List.append_cons] at h ⊢
      rw [utf8_cons, splitLines_append hbytes, ← ih _ hnext h, utf8_append, List.reverse_append,
        utf8_cons, utf8_nil, List.append_nil]

theorem answerLines_utf8 (task : Task) (fields : List Text) :
    ∃ left, task.answerLines (fields.map utf8) = (task.answerFields fields, some left) := by
  induction fields generalizing task with
  | nil => exact ⟨task, rfl⟩
  | cons field later ih =>
    obtain ⟨left, hleft⟩ := ih (task.answer field).2
    refine ⟨left, ?_⟩
    rw [List.map_cons, Task.answerLines, fromUTF8?_utf8]
    dsimp only
    rw [String.toList_ofList, hleft]
    rfl

theorem run_lines (task : Task) {text : Text}
    (h : ∀ line ∈ linesOf text, line.getLast? ≠ some '\r') :
    (Work.answer task []).run (utf8 text) = ⟨0, task.answerFields (linesOf text)⟩ := by
  obtain ⟨left, hleft⟩ := answerLines_utf8 task (linesOf text)
  have hlines := withTail_splitLines [] text List.not_mem_nil h
  rw [utf8_nil, List.reverse_nil, List.nil_append, withTail] at hlines
  rw [Work.run]
  dsimp only
  rw [hlines, hleft]
  rfl

end Gloss.Command
