import Gloss.Text.Basic
import Mathlib.Tactic.SplitIfs

/-! Lines of a text, and the bytes that a text is written with. Line feeds and carriage returns are
bytes of their own, and no part of another character. -/
namespace Gloss.Text

def utf8 (t : Text) : List UInt8 :=
  t.flatMap String.utf8EncodeChar

@[simp] theorem utf8_nil : utf8 [] = [] := rfl

@[simp] theorem utf8_cons (c : Char) (t : Text) :
    utf8 (c :: t) = String.utf8EncodeChar c ++ utf8 t :=
  List.flatMap_cons

@[simp] theorem utf8_append (s t : Text) : utf8 (s ++ t) = utf8 s ++ utf8 t :=
  List.flatMap_append

theorem utf8_eq_nil_iff {t : Text} : utf8 t = [] ↔ t = [] := by
  cases t <;> simp

theorem fromUTF8?_utf8 (t : Text) :
    String.fromUTF8? ⟨(utf8 t).toArray⟩ = some (String.ofList t) := by
  have hbytes : (⟨(utf8 t).toArray⟩ : ByteArray) = t.utf8Encode := by
    apply ByteArray.ext
    rw [List.utf8Encode, List.data_toByteArray]
    rfl
  rw [hbytes, String.fromUTF8?, dif_pos ByteArray.isValidUTF8_utf8Encode]
  rfl

private theorem not_high {n : Nat} (hlow : 128 ≤ n) (hn : n < 256)
    (h : (UInt8.ofNat n).toNat < 128) : False := by
  rw [UInt8.toNat_ofNat', Nat.mod_eq_of_lt hn] at h
  omega

/-- A byte below 128 is a whole character. -/
theorem eq_of_mem_utf8EncodeChar {c : Char} {byte : UInt8} (h : byte ∈ String.utf8EncodeChar c)
    (hbyte : byte.toNat < 128) : c.toNat = byte.toNat := by
  unfold String.utf8EncodeChar at h
  dsimp only at h
  split at h
  · next hone =>
    obtain rfl := List.mem_singleton.mp h
    rw [UInt8.toNat_ofNat']
    exact (Nat.mod_eq_of_lt (Nat.lt_of_le_of_lt hone (by decide))).symm
  · -- Every byte of a longer form has its highest bit set.
    exfalso
    split at h
    · simp only [List.mem_cons, List.not_mem_nil, or_false] at h
      rcases h with rfl | rfl <;> exact not_high (by omega) (by omega) hbyte
    · split at h
      · simp only [List.mem_cons, List.not_mem_nil, or_false] at h
        rcases h with rfl | rfl | rfl <;> exact not_high (by omega) (by omega) hbyte
      · simp only [List.mem_cons, List.not_mem_nil, or_false] at h
        rcases h with rfl | rfl | rfl | rfl <;> exact not_high (by omega) (by omega) hbyte

theorem eq_of_ascii_mem {c d : Char} {byte : UInt8} (h : byte ∈ String.utf8EncodeChar c)
    (hd : d.toNat = byte.toNat) (hbyte : byte.toNat < 128) : c = d :=
  Char.toNat_inj.mp ((eq_of_mem_utf8EncodeChar h hbyte).trans hd.symm)

theorem lineFeed_not_mem_utf8 {t : Text} (h : '\n' ∉ t) : 10 ∉ utf8 t := by
  intro hmem
  obtain ⟨c, hc, hbyte⟩ := List.mem_flatMap.mp hmem
  exact h (eq_of_ascii_mem (d := '\n') hbyte rfl (by decide) ▸ hc)

/-- The bytes of a text end in a carriage return only when the text does. -/
theorem getLast?_utf8 {t : Text} (h : (utf8 t).getLast? = some 13) : t.getLast? = some '\r' := by
  rcases List.eq_nil_or_concat t with rfl | ⟨rest, c, rfl⟩
  · cases h
  · rw [List.concat_eq_append, utf8_append, utf8_cons, utf8_nil, List.append_nil,
      List.getLast?_append, Option.or_eq_some_iff] at h
    rcases h with h | ⟨h, -⟩
    · have hreturn := eq_of_ascii_mem (d := '\r') (List.mem_of_getLast? h) rfl (by decide)
      rw [hreturn, List.concat_eq_append, List.getLast?_concat]
    · simp at h

/-- The lines of a text. What follows the last line feed is a line unless it is empty. -/
def linesOf : Text → List Text
  | [] => []
  | c :: rest =>
    if c = '\n' then [] :: linesOf rest
    else
      match linesOf rest with
      | [] => [[c]]
      | line :: later => (c :: line) :: later

def unlines (lines : List Text) : Text :=
  lines.flatMap (· ++ ['\n'])

theorem unlines_cons (line : Text) (later : List Text) :
    unlines (line :: later) = line ++ '\n' :: unlines later := by
  rw [unlines, List.flatMap_cons, List.append_assoc]
  rfl

/-- A text that keeps its shape on a line of its own. -/
structure IsLine (t : Text) : Prop where
  noFeed : '\n' ∉ t
  noReturn : t.getLast? ≠ some '\r'

theorem IsLine.append {s t : Text} (hs : IsLine s) (ht : IsLine t) : IsLine (s ++ t) where
  noFeed := List.not_mem_append hs.noFeed ht.noFeed
  noReturn := by
    intro h
    rw [List.getLast?_append, Option.or_eq_some_iff] at h
    rcases h with h | ⟨-, h⟩
    · exact ht.noReturn h
    · exact hs.noReturn h

theorem linesOf_append_lineFeed {line : Text} (h : '\n' ∉ line) (rest : Text) :
    linesOf (line ++ '\n' :: rest) = line :: linesOf rest := by
  induction line with
  | nil => rw [List.nil_append, linesOf, if_pos rfl]
  | cons c line ih =>
    obtain ⟨hc, hline⟩ := List.ne_and_not_mem_of_not_mem_cons h
    rw [List.cons_append, linesOf, if_neg hc.symm, ih hline]

theorem linesOf_line {line : Text} (h : '\n' ∉ line) (hne : line ≠ []) : linesOf line = [line] := by
  induction line with
  | nil => exact absurd rfl hne
  | cons c line ih =>
    obtain ⟨hc, hline⟩ := List.ne_and_not_mem_of_not_mem_cons h
    rw [linesOf, if_neg hc.symm]
    cases line with
    | nil => rfl
    | cons d line => rw [ih hline (List.cons_ne_nil d line)]

theorem linesOf_unlines {lines : List Text} (h : ∀ line ∈ lines, '\n' ∉ line) :
    linesOf (unlines lines) = lines := by
  induction lines with
  | nil => rfl
  | cons line later ih =>
    obtain ⟨hline, hlater⟩ := List.forall_mem_cons.mp h
    rw [unlines_cons, linesOf_append_lineFeed hline, ih hlater]

theorem mem_of_mem_linesOf {t line : Text} (h : line ∈ linesOf t) {c : Char} (hc : c ∈ line) :
    c ∈ t ∧ c ≠ '\n' := by
  induction t generalizing line with
  | nil => cases h
  | cons d t ih =>
    rw [linesOf] at h
    split_ifs at h with hfeed
    · rcases List.mem_cons.mp h with rfl | h
      · cases hc
      · obtain ⟨ht, hne⟩ := ih h hc
        exact ⟨List.mem_cons_of_mem d ht, hne⟩
    · split at h
      · obtain rfl := List.mem_singleton.mp h
        obtain rfl := List.mem_singleton.mp hc
        exact ⟨List.mem_cons_self, hfeed⟩
      · next first later hlines =>
        rw [hlines] at ih
        have hbehind (part : Text) (hpart : part ∈ first :: later) (hmem : c ∈ part) :
            c ∈ d :: t ∧ c ≠ '\n' := by
          obtain ⟨ht, hne⟩ := ih hpart hmem
          exact ⟨List.mem_cons_of_mem d ht, hne⟩
        rcases List.mem_cons.mp h with rfl | h
        · rcases List.mem_cons.mp hc with rfl | hc
          · exact ⟨List.mem_cons_self, hfeed⟩
          · exact hbehind first List.mem_cons_self hc
        · exact hbehind line (List.mem_cons_of_mem first h) hc

end Gloss.Text
