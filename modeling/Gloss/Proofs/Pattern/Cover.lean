import Gloss.Proofs.Pattern.LeftmostLongest
import Mathlib.Data.List.Chain
import Mathlib.Data.List.Sort

/-! What is chosen among candidates, told without an order to go through them: the matches lie
apart, each is the best at its start, and every candidate begins inside one of them. Only one list
is like that, so neither the order of the candidates nor those not chosen count. -/
namespace Gloss.Candidate
variable {P : Type}

def rank (a : Candidate P) : Nat × Nat × Nat :=
  (a.start, a.length, a.ordinal)

/-- A candidate that is not empty, is the longest with its start, and of equally long ones was
registered first. -/
structure IsBest (candidates : List (Candidate P)) (a : Candidate P) : Prop where
  mem : a ∈ candidates
  nonempty : a.start < a.stop
  longest : ∀ b ∈ candidates, b.start = a.start → b.length ≤ a.length
  first : ∀ b ∈ candidates, b.start = a.start → b.length = a.length → a.ordinal ≤ b.ordinal

/-- Matches that lie apart, each the best candidate at its start, such that every candidate begins
inside one of them. -/
structure IsCover (candidates : List (Candidate P)) (chosen : List (Match P)) : Prop where
  best : ∀ m ∈ chosen, ∃ a, IsBest candidates a ∧ a.toMatch = m
  apart : chosen.IsChain fun m n => m.stop ≤ n.start
  reached : ∀ b ∈ candidates, b.isEmpty = false → ∃ m ∈ chosen, m.start ≤ b.start ∧ b.start < m.stop

section Order

theorem precedes_iff {a b : Candidate P} :
    a.precedes b = true ↔ a.start < b.start ∨
      a.start = b.start ∧ (b.length < a.length ∨ a.length = b.length ∧ a.ordinal ≤ b.ordinal) := by
  unfold precedes
  split
  · next h =>
    rw [decide_eq_true_eq]
    omega
  · next h =>
    split
    · rw [decide_eq_true_eq]
      omega
    · rw [decide_eq_true_eq]
      omega

private theorem precedes_total (a b : Candidate P) : a.precedes b = true ∨ b.precedes a = true := by
  rw [precedes_iff, precedes_iff]
  omega

private theorem precedes_trans (a b c : Candidate P) (hab : a.precedes b = true)
    (hbc : b.precedes c = true) : a.precedes c = true := by
  rw [precedes_iff] at hab hbc ⊢
  omega

theorem arrange_eq_insertionSort (candidates : List (Candidate P)) :
    arrange candidates = candidates.insertionSort fun a b => a.precedes b = true := by
  have hinsert (a : Candidate P) (l : List (Candidate P)) :
      insertOrdered a l = l.orderedInsert (fun a b => a.precedes b = true) a := by
    induction l with
    | nil => rfl
    | cons b l ih => rw [insertOrdered, List.orderedInsert_cons, ih]
  induction candidates with
  | nil => rfl
  | cons a candidates ih =>
    rw [arrange, List.foldr_cons, ← arrange, ih, hinsert, List.insertionSort_cons]

theorem arrange_pairwise (candidates : List (Candidate P)) :
    (arrange candidates).Pairwise fun a b => a.precedes b = true := by
  have : Std.Total fun a b : Candidate P => a.precedes b = true := ⟨precedes_total⟩
  have : IsTrans (Candidate P) fun a b => a.precedes b = true := ⟨precedes_trans⟩
  rw [arrange_eq_insertionSort]
  exact List.pairwise_insertionSort _ candidates

end Order

/-- The cover of the candidates that start at `bound` or behind it, as candidates. -/
structure CoversFrom (bound : Nat) (candidates kept : List (Candidate P)) : Prop where
  best : ∀ a ∈ kept, IsBest candidates a
  behind : ∀ a ∈ kept, bound ≤ a.start
  apart : kept.Pairwise fun a b => a.stop ≤ b.start
  reached : ∀ b ∈ candidates, bound ≤ b.start → b.start < b.stop →
    ∃ a ∈ kept, a.start ≤ b.start ∧ b.start < a.stop

section Sweeping
variable {covered : Nat} {a : Candidate P} {candidates kept : List (Candidate P)}

theorem IsBest.cons {b : Candidate P} (h : IsBest candidates b) (hstart : a.start < b.start) :
    IsBest (a :: candidates) b := by
  refine ⟨List.mem_cons_of_mem a h.mem, h.nonempty, ?_, ?_⟩
  · intro c hc he
    rcases List.mem_cons.mp hc with rfl | hc
    · omega
    · exact h.longest c hc he
  · intro c hc he hlength
    rcases List.mem_cons.mp hc with rfl | hc
    · omega
    · exact h.first c hc he hlength

theorem isBest_head (h : ∀ b ∈ candidates, a.precedes b = true) (hpos : a.start < a.stop) :
    IsBest (a :: candidates) a := by
  have hfirst (b : Candidate P) (hb : b ∈ a :: candidates) (he : b.start = a.start) :
      b.length < a.length ∨ a.length = b.length ∧ a.ordinal ≤ b.ordinal := by
    rcases List.mem_cons.mp hb with rfl | hb
    · exact .inr ⟨rfl, Nat.le_refl _⟩
    · have hprecedes := precedes_iff.mp (h b hb)
      omega
  refine ⟨List.mem_cons_self, hpos, ?_, ?_⟩
  · intro b hb he
    have := hfirst b hb he
    omega
  · intro b hb he hlength
    have := hfirst b hb he
    omega

theorem CoversFrom.skip (h : CoversFrom covered candidates kept) (hstart : a.start < covered) :
    CoversFrom covered (a :: candidates) kept := by
  refine ⟨?_, h.behind, h.apart, ?_⟩
  · intro b hb
    apply (h.best b hb).cons
    exact Nat.lt_of_lt_of_le hstart (h.behind b hb)
  · intro b hb hbound hpos
    rcases List.mem_cons.mp hb with rfl | hb
    · omega
    · exact h.reached b hb hbound hpos

theorem CoversFrom.take (h : CoversFrom a.stop candidates kept) (hstart : covered ≤ a.start)
    (hpos : a.start < a.stop) (hfirst : ∀ b ∈ candidates, a.precedes b = true) :
    CoversFrom covered (a :: candidates) (a :: kept) := by
  refine ⟨?_, ?_, List.pairwise_cons.mpr ⟨h.behind, h.apart⟩, ?_⟩
  · intro b hb
    rcases List.mem_cons.mp hb with rfl | hb
    · exact isBest_head hfirst hpos
    · apply (h.best b hb).cons
      exact Nat.lt_of_lt_of_le hpos (h.behind b hb)
  · intro b hb
    rcases List.mem_cons.mp hb with rfl | hb
    · exact hstart
    · have := h.behind b hb
      omega
  · intro b hb hbound hb'
    by_cases hinside : b.start < a.stop
    · refine ⟨a, List.mem_cons_self, ?_, hinside⟩
      rcases List.mem_cons.mp hb with rfl | hb
      · exact Nat.le_refl _
      · have := precedes_iff.mp (hfirst b hb)
        omega
    · rcases List.mem_cons.mp hb with rfl | hb
      · omega
      · obtain ⟨c, hc, hreached⟩ := h.reached b hb (Nat.le_of_not_lt hinside) hb'
        exact ⟨c, List.mem_cons_of_mem a hc, hreached⟩

/-- Sweeping ordered candidates covers those behind the bound. -/
theorem coversFrom_sweep (hordered : candidates.Pairwise fun a b => a.precedes b = true)
    (hpos : ∀ a ∈ candidates, a.start < a.stop) (covered : Nat) :
    CoversFrom covered candidates (sweep covered candidates) := by
  induction candidates generalizing covered with
  | nil => exact ⟨by simp [sweep], by simp [sweep], .nil, by simp⟩
  | cons a candidates ih =>
    obtain ⟨hfirst, hordered⟩ := List.pairwise_cons.mp hordered
    obtain ⟨ha, hpos⟩ := List.forall_mem_cons.mp hpos
    rw [sweep]
    split
    · next hstart => exact (ih hordered hpos covered).skip hstart
    · next hstart =>
      exact (ih hordered hpos a.stop).take (Nat.le_of_not_lt hstart) ha hfirst

end Sweeping

section Unique
variable {bound : Nat} {a b : Candidate P} {candidates kept other : List (Candidate P)}

theorem IsBest.eq (hinj : ∀ a ∈ candidates, ∀ b ∈ candidates, a.rank = b.rank → a = b)
    (ha : IsBest candidates a) (hb : IsBest candidates b) (hstart : a.start = b.start) : a = b := by
  have hlength : a.length = b.length :=
    Nat.le_antisymm (hb.longest a ha.mem hstart) (ha.longest b hb.mem hstart.symm)
  have hordinal : a.ordinal = b.ordinal :=
    Nat.le_antisymm (ha.first b hb.mem hstart.symm hlength.symm)
      (hb.first a ha.mem hstart hlength)
  apply hinj a ha.mem b hb.mem
  rw [rank, rank, hstart, hlength, hordinal]

theorem CoversFrom.tail (h : CoversFrom bound candidates (a :: kept)) :
    CoversFrom a.stop candidates kept := by
  obtain ⟨hbehind, hapart⟩ := List.pairwise_cons.mp h.apart
  refine ⟨fun b hb => h.best b (List.mem_cons_of_mem a hb), hbehind, hapart, ?_⟩
  intro b hb hbound hpos
  have ha := (h.best a List.mem_cons_self).nonempty
  have hstart := h.behind a List.mem_cons_self
  obtain ⟨c, hc, hreached⟩ := h.reached b hb (by omega) hpos
  rcases List.mem_cons.mp hc with rfl | hc
  · omega
  · exact ⟨c, hc, hreached⟩

theorem CoversFrom.head_le (h : CoversFrom bound candidates (a :: kept)) (hb : b ∈ candidates)
    (hbound : bound ≤ b.start) (hpos : b.start < b.stop) : a.start ≤ b.start := by
  obtain ⟨c, hc, hle, -⟩ := h.reached b hb hbound hpos
  rcases List.mem_cons.mp hc with rfl | hc
  · exact hle
  · have ha := (h.best a List.mem_cons_self).nonempty
    have hbehind := (List.pairwise_cons.mp h.apart).1 c hc
    omega

/-- Candidates that differ in rank have one cover. -/
theorem CoversFrom.unique (hinj : ∀ a ∈ candidates, ∀ b ∈ candidates, a.rank = b.rank → a = b)
    (h : CoversFrom bound candidates kept) (hother : CoversFrom bound candidates other) :
    kept = other := by
  have hnil {bound : Nat} {a : Candidate P} {kept : List (Candidate P)}
      (h : CoversFrom bound candidates (a :: kept)) : ¬ CoversFrom bound candidates [] := by
    intro hempty
    have ha := h.best a List.mem_cons_self
    obtain ⟨c, hc, -⟩ := hempty.reached a ha.mem (h.behind a List.mem_cons_self) ha.nonempty
    cases hc
  induction kept generalizing bound other with
  | nil =>
    cases other with
    | nil => rfl
    | cons b other => exact absurd h (hnil hother)
  | cons a kept ih =>
    cases other with
    | nil => exact absurd hother (hnil h)
    | cons b other =>
      have ha := h.best a List.mem_cons_self
      have hb := hother.best b List.mem_cons_self
      have hstart : a.start = b.start := by
        apply Nat.le_antisymm
        · exact h.head_le hb.mem (hother.behind b List.mem_cons_self) hb.nonempty
        · exact hother.head_le ha.mem (h.behind a List.mem_cons_self) ha.nonempty
      obtain rfl := ha.eq hinj hb hstart
      rw [ih h.tail hother.tail]

end Unique

section Selected
variable {candidates : List (Candidate P)}

def selected (candidates : List (Candidate P)) : List (Candidate P) :=
  sweep 0 (arrange (candidates.filter (!·.isEmpty)))

theorem resolve_eq_map_selected (candidates : List (Candidate P)) :
    resolve candidates = (selected candidates).map toMatch := rfl

/-- Empty candidates do not compete, and need not be reached. -/
theorem CoversFrom.of_mem_iff {bound : Nat} {l kept : List (Candidate P)}
    (h : CoversFrom bound l kept) (hl : ∀ a, a ∈ l ↔ a ∈ candidates ∧ a.start < a.stop) :
    CoversFrom bound candidates kept := by
  refine ⟨?_, h.behind, h.apart, ?_⟩
  · intro a ha
    have hbest := h.best a ha
    have hlength : 0 < a.length := Nat.sub_pos_of_lt hbest.nonempty
    have hempty (b : Candidate P) (hb : ¬ b.start < b.stop) : b.length = 0 :=
      Nat.sub_eq_zero_of_le (Nat.le_of_not_lt hb)
    refine ⟨((hl a).mp hbest.mem).1, hbest.nonempty, ?_, ?_⟩
    · intro b hb he
      by_cases hpos : b.start < b.stop
      · exact hbest.longest b ((hl b).mpr ⟨hb, hpos⟩) he
      · rw [hempty b hpos]
        exact Nat.zero_le _
    · intro b hb he hequal
      by_cases hpos : b.start < b.stop
      · exact hbest.first b ((hl b).mpr ⟨hb, hpos⟩) he hequal
      · rw [hempty b hpos] at hequal
        omega
  · intro b hb hbound hpos
    exact h.reached b ((hl b).mpr ⟨hb, hpos⟩) hbound hpos

/-- Candidates that are not chosen may be left out. -/
theorem CoversFrom.of_subset {bound : Nat} {part kept : List (Candidate P)}
    (h : CoversFrom bound candidates kept) (hsub : part ⊆ candidates) (hkept : kept ⊆ part) :
    CoversFrom bound part kept := by
  refine ⟨?_, h.behind, h.apart, fun b hb => h.reached b (hsub hb)⟩
  intro a ha
  have hbest := h.best a ha
  exact ⟨hkept ha, hbest.nonempty, fun b hb => hbest.longest b (hsub hb),
    fun b hb => hbest.first b (hsub hb)⟩

theorem isEmpty_eq_false_iff {a : Candidate P} (h : a.start ≤ a.stop) :
    a.isEmpty = false ↔ a.start < a.stop := by
  rw [isEmpty, beq_eq_false_iff_ne]
  omega

theorem coversFrom_selected (hordered : ∀ a ∈ candidates, a.start ≤ a.stop) :
    CoversFrom 0 candidates (selected candidates) := by
  have hmem (a : Candidate P) : a ∈ arrange (candidates.filter (!·.isEmpty)) ↔
      a ∈ candidates ∧ a.start < a.stop := by
    rw [mem_arrange, List.mem_filter, Bool.not_eq_true']
    exact and_congr_right fun ha => isEmpty_eq_false_iff (hordered a ha)
  apply CoversFrom.of_mem_iff _ hmem
  apply coversFrom_sweep (arrange_pairwise _)
  exact fun a ha => ((hmem a).mp ha).2

private theorem pairwise_of_isChain {l : List (Candidate P)}
    (h : l.IsChain fun a b => a.stop ≤ b.start) (hpos : ∀ a ∈ l, a.start < a.stop) :
    l.Pairwise fun a b => a.stop ≤ b.start := by
  induction l with
  | nil => exact .nil
  | cons a l ih =>
    obtain ⟨hhead, htail⟩ := List.isChain_cons.mp h
    obtain ⟨-, hpos⟩ := List.forall_mem_cons.mp hpos
    have hl := ih htail hpos
    refine List.pairwise_cons.mpr ⟨?_, hl⟩
    cases l with
    | nil => exact List.forall_mem_nil _
    | cons b l =>
      have hb : a.stop ≤ b.start := hhead b rfl
      intro c hc
      rcases List.mem_cons.mp hc with rfl | hc
      · exact hb
      · have hbc := (List.pairwise_cons.mp hl).1 c hc
        have hbpos := hpos b List.mem_cons_self
        omega

private theorem exists_map_eq {α β : Type} {f : α → β} {p : α → Prop} {l : List β}
    (h : ∀ b ∈ l, ∃ a, p a ∧ f a = b) : ∃ m : List α, (∀ a ∈ m, p a) ∧ m.map f = l := by
  induction l with
  | nil => exact ⟨[], List.forall_mem_nil _, rfl⟩
  | cons b l ih =>
    obtain ⟨⟨a, ha, rfl⟩, hl⟩ := List.forall_mem_cons.mp h
    obtain ⟨m, hm, rfl⟩ := ih hl
    exact ⟨a :: m, List.forall_mem_cons.mpr ⟨ha, hm⟩, rfl⟩

/-- A cover by matches comes from one by candidates. -/
theorem isCover_iff (hordered : ∀ a ∈ candidates, a.start ≤ a.stop) {chosen : List (Match P)} :
    IsCover candidates chosen ↔
      ∃ kept, CoversFrom 0 candidates kept ∧ chosen = kept.map toMatch := by
  constructor
  · intro h
    obtain ⟨kept, hbest, rfl⟩ := exists_map_eq h.best
    refine ⟨kept, ⟨hbest, fun _ _ => Nat.zero_le _, ?_, ?_⟩, rfl⟩
    · apply pairwise_of_isChain
      · exact (List.isChain_map toMatch).mp h.apart
      · exact fun a ha => (hbest a ha).nonempty
    · intro b hb _ hpos
      obtain ⟨m, hm, hreached⟩ := h.reached b hb ((isEmpty_eq_false_iff (hordered b hb)).mpr hpos)
      obtain ⟨a, ha, rfl⟩ := List.mem_map.mp hm
      exact ⟨a, ha, hreached⟩
  · rintro ⟨kept, h, rfl⟩
    refine ⟨?_, ?_, ?_⟩
    · intro m hm
      obtain ⟨a, ha, rfl⟩ := List.mem_map.mp hm
      exact ⟨a, h.best a ha, rfl⟩
    · exact (List.isChain_map toMatch).mpr h.apart.isChain
    · intro b hb hempty
      have hpos := (isEmpty_eq_false_iff (hordered b hb)).mp hempty
      obtain ⟨a, ha, hreached⟩ := h.reached b hb (Nat.zero_le _) hpos
      exact ⟨a.toMatch, List.mem_map_of_mem ha, hreached⟩

/-- Resolving gives the leftmost longest cover, and there is no other. The candidates need not come
from an index. -/
theorem isCover_iff_eq_resolve (hordered : ∀ a ∈ candidates, a.start ≤ a.stop)
    (hdistinct : (candidates.map rank).Nodup) (chosen : List (Match P)) :
    IsCover candidates chosen ↔ chosen = resolve candidates := by
  have hselected := coversFrom_selected hordered
  rw [isCover_iff hordered, resolve_eq_map_selected]
  constructor
  · rintro ⟨kept, h, rfl⟩
    rw [h.unique (fun a ha b hb he => List.inj_on_of_nodup_map hdistinct ha hb he) hselected]
  · intro h
    exact ⟨selected candidates, hselected, h⟩

/-- Candidates that overlap in a chain, two with one place, and an empty one. -/
def overlapping : List (Candidate Nat) :=
  [⟨"lek melden".toList, 1, 5, 15, 1⟩, ⟨"Data lek".toList, 3, 0, 8, 3⟩, ⟨[], 4, 8, 8, 4⟩,
   ⟨"melden".toList, 2, 9, 15, 2⟩, ⟨"data lek".toList, 0, 0, 8, 0⟩, ⟨"data".toList, 5, 0, 4, 5⟩]

theorem isCover_iff_eq_resolve_overlapping :
    (∀ a ∈ overlapping, a.start ≤ a.stop) ∧ (overlapping.map rank).Nodup ∧
    IsCover overlapping [⟨"data lek".toList, 0, 0, 8⟩, ⟨"melden".toList, 2, 9, 15⟩] ∧
    ¬ IsCover overlapping [⟨"data".toList, 5, 0, 4⟩, ⟨"lek melden".toList, 1, 5, 15⟩] := by
  have hordered : ∀ a ∈ overlapping, a.start ≤ a.stop := by decide
  have hdistinct : (overlapping.map rank).Nodup := by decide
  have hunique := isCover_iff_eq_resolve hordered hdistinct
  refine ⟨hordered, hdistinct, (hunique _).mpr rfl, ?_⟩
  rw [hunique]
  intro h
  cases congrArg (List.map Match.payload) h

/-- Only the chosen candidates count: the others may be left out, and the order does not matter. -/
theorem resolve_eq_of_selected_subset (hordered : ∀ a ∈ candidates, a.start ≤ a.stop)
    (hdistinct : (candidates.map rank).Nodup) :
    (∀ part, part ⊆ candidates → selected candidates ⊆ part →
      resolve part = resolve candidates) ∧
    (∀ other, other.Perm candidates → resolve other = resolve candidates) ∧
    resolve (selected candidates) = resolve candidates := by
  have hselected := coversFrom_selected hordered
  have hpart (part : List (Candidate P)) (hsub : part ⊆ candidates)
      (hkept : selected candidates ⊆ part) : resolve part = resolve candidates := by
    have hcovers := hselected.of_subset hsub hkept
    have hpart := coversFrom_selected fun a ha => hordered a (hsub ha)
    rw [resolve_eq_map_selected, resolve_eq_map_selected, hpart.unique ?_ hcovers]
    exact fun a ha b hb he => List.inj_on_of_nodup_map hdistinct (hsub ha) (hsub hb) he
  have hsub : selected candidates ⊆ candidates := fun a ha => (hselected.best a ha).mem
  refine ⟨hpart, ?_, hpart _ hsub (List.Subset.refl _)⟩
  intro other hperm
  exact hpart other hperm.subset (List.Subset.trans hsub hperm.symm.subset)

def remaining : List (Candidate Nat) :=
  [⟨"melden".toList, 2, 9, 15, 2⟩, ⟨"Data lek".toList, 3, 0, 8, 3⟩, ⟨"data lek".toList, 0, 0, 8, 0⟩]

theorem resolve_eq_of_selected_subset_overlapping :
    (∀ a ∈ overlapping, a.start ≤ a.stop) ∧ (overlapping.map rank).Nodup ∧
    remaining ⊆ overlapping ∧ selected overlapping ⊆ remaining ∧
    resolve remaining = resolve overlapping ∧
    resolve overlapping.reverse = resolve overlapping ∧
    resolve (selected overlapping) =
      [⟨"data lek".toList, 0, 0, 8⟩, ⟨"melden".toList, 2, 9, 15⟩] := by
  have hordered : ∀ a ∈ overlapping, a.start ≤ a.stop := by decide
  have hdistinct : (overlapping.map rank).Nodup := by decide
  have hselected : selected overlapping =
      [⟨"data lek".toList, 0, 0, 8, 0⟩, ⟨"melden".toList, 2, 9, 15, 2⟩] := rfl
  have hsub : remaining ⊆ overlapping := by simp [remaining, overlapping]
  have hkept : selected overlapping ⊆ remaining := by simp [hselected, remaining]
  obtain ⟨hpart, hperm, hagain⟩ := resolve_eq_of_selected_subset hordered hdistinct
  refine ⟨hordered, hdistinct, hsub, hkept, hpart _ hsub hkept, ?_, hagain⟩
  exact hperm _ (List.reverse_perm _)

end Selected
end Gloss.Candidate
