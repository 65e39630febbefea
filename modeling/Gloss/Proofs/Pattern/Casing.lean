import Gloss.Proofs.Pattern.LeftmostLongest
import Gloss.Proofs.Text.Fold
import Mathlib.Data.List.Forall2

/-! Searching two texts that differ in case only. Cases of one letter can take different numbers of
bytes, so places are compared in characters. -/
namespace Gloss
open Text
variable {P : Type} {words : WordChars} {lookup : Text → Option P}

/-- Characters at the same place have the same lowercase form, and make up words alike. -/
def SameButCase (words : WordChars) : Text → Text → Prop :=
  List.Forall₂ fun c d => lower c = lower d ∧ words.isWordChar c = words.isWordChar d

def Text.charOffset (text : Text) (bytes : Nat) : Nat :=
  (splitAtByte bytes text).1.length

theorem Text.charOffset_byteLength (before behind : Text) :
    charOffset (before ++ behind) (byteLength before) = before.length := by
  rw [charOffset, splitAtByte_byteLength]

/-- Matches in two texts, with one payload and at one place when characters are counted. -/
structure Match.SamePlace (t u : Text) (m n : Match P) : Prop where
  payload : m.payload = n.payload
  length : m.text.length = n.text.length
  start : charOffset t m.start = charOffset u n.start
  stop : charOffset t m.stop = charOffset u n.stop

theorem Match.samePlace_parts {before before' part part' : Text}
    (hbefore : before.length = before'.length) (hpart : part.length = part'.length) (payload : P)
    (behind behind' : Text) :
    SamePlace (before ++ part ++ behind) (before' ++ part' ++ behind')
      ⟨part, payload, byteLength before, byteLength before + byteLength part⟩
      ⟨part', payload, byteLength before', byteLength before' + byteLength part'⟩ where
  payload := rfl
  length := hpart
  start := by
    rw [List.append_assoc, List.append_assoc, charOffset_byteLength, charOffset_byteLength, hbefore]
  stop := by
    rw [← byteLength_append, ← byteLength_append, charOffset_byteLength, charOffset_byteLength,
      List.length_append, List.length_append, hbefore, hpart]

namespace SameButCase
variable {t u : Text}

theorem length_eq (h : SameButCase words t u) : t.length = u.length :=
  List.Forall₂.length_eq h

theorem foldCase_eq (h : SameButCase words t u) : foldCase t = foldCase u := by
  induction h with
  | nil => rfl
  | cons hc _ ih => rw [foldCase_cons, foldCase_cons, hc.1, ih]

theorem take (h : SameButCase words t u) (k : Nat) : SameButCase words (t.take k) (u.take k) :=
  List.forall₂_take k h

theorem drop (h : SameButCase words t u) (k : Nat) : SameButCase words (t.drop k) (u.drop k) :=
  List.forall₂_drop k h

theorem isBoundary_head? (h : SameButCase words t u) :
    words.isBoundary t.head? = words.isBoundary u.head? := by
  cases h with
  | nil => rfl
  | cons hc _ => exact congrArg (!·) hc.2

theorem isBoundary_getLast? (h : SameButCase words t u) :
    words.isBoundary t.getLast? = words.isBoundary u.getLast? := by
  rw [← List.head?_reverse, ← List.head?_reverse]
  exact isBoundary_head? (List.forall₂_reverse_iff.mpr h)

section Search
variable (hlookup : ∀ s s', foldCase s = foldCase s' → lookup s = lookup s')
include hlookup

theorem longest?_eq (h : SameButCase words t u) :
    longest? words lookup t = longest? words lookup u := by
  unfold longest?
  rw [h.length_eq]
  congr 1
  funext k
  rw [(h.drop (k + 1)).isBoundary_head?, hlookup _ _ (h.take (k + 1)).foldCase_eq]

/-- The same is found, at the same places. -/
theorem leftmostLongest_samePlace (h : SameButCase words t u) {previous previous' : Option Char}
    (hprevious : words.isBoundary previous = words.isBoundary previous') {before before' : Text}
    (hbefore : before.length = before'.length) {offset : Nat} (hoffset : offset = byteLength before) :
    List.Forall₂ (Match.SamePlace (before ++ t) (before' ++ u))
      (leftmostLongest words lookup previous offset t)
      (leftmostLongest words lookup previous' (byteLength before') u) := by
  -- The texts passed over so far stand before both sides, and have the same number of characters.
  induction previous, offset, t using leftmostLongest.induct words lookup
      generalizing previous' before before' u with
  | case1 previous offset =>
    cases h
    rw [leftmostLongest, leftmostLongest]
    exact .nil
  | case2 previous offset c rest hnone ih =>
    rw [dite_eq_ite] at hnone
    subst hoffset
    cases h with
    | @cons _ d _ rest' hc hrest =>
      have hnone' := hnone
      rw [hprevious, longest?_eq hlookup (.cons hc hrest)] at hnone'
      have hnext : words.isBoundary (some c) = words.isBoundary (some d) :=
        congrArg (!·) hc.2
      have hlength : (before ++ [c]).length = (before' ++ [d]).length := by
        rw [List.length_append, List.length_append, hbefore]
        rfl
      have hlater := ih hrest hnext hlength (byteLength_append before [c]).symm
      rw [byteLength_append] at hlater
      rw [leftmostLongest, leftmostLongest, hnone, hnone', List.append_cons before,
        List.append_cons before']
      exact hlater
  | case3 previous offset c rest k payload hsome part =>
    rename_i ih
    rw [dite_eq_ite] at hsome
    subst hoffset
    cases h with
    | @cons _ d _ rest' hc hrest =>
      have hsome' := hsome
      rw [hprevious, longest?_eq hlookup (.cons hc hrest)] at hsome'
      have hpart : SameButCase words part (d :: rest'.take k) :=
        .cons hc (List.forall₂_take k hrest)
      have hbehind : SameButCase words (rest.drop k) (rest'.drop k) := List.forall₂_drop k hrest
      have hfirst := Match.samePlace_parts hbefore hpart.length_eq payload (rest.drop k)
        (rest'.drop k)
      have hlength : (before ++ part).length = (before' ++ d :: rest'.take k).length := by
        rw [List.length_append, List.length_append, hbefore, hpart.length_eq]
      have hlater := ih hbehind hpart.isBoundary_getLast? hlength
        (byteLength_append before part).symm
      rw [byteLength_append] at hlater
      have htext : before ++ c :: rest = before ++ part ++ rest.drop k := by
        rw [List.append_assoc, List.cons_append, List.take_append_drop]
      have htext' : before' ++ d :: rest' = before' ++ d :: rest'.take k ++ rest'.drop k := by
        rw [List.append_assoc, List.cons_append, List.take_append_drop]
      rw [leftmostLongest, leftmostLongest, hsome, hsome', htext, htext']
      exact .cons hfirst hlater

end Search
end SameButCase
end Gloss
