import Gloss.Proofs.Annotator.Replacement
import Gloss.Proofs.Markup.Elements

/-! What becomes of matches one after another. A match is redirected, or defined when its key is
new, or left as it is; redirected matches neither use up a key nor ask for one. -/
namespace Gloss
open Text Markup

namespace Scope
variable {scope : Scope} {keys : List Text} {key k : Text}

def extend (scope : Scope) (keys : List Text) : Scope :=
  keys.foldl (fun scope key => (scope.mark key).1) scope

theorem mark_of_mem (h : key ∈ scope.keys) : scope.mark key = (scope, false) :=
  dif_pos (contains_iff.mpr h)

theorem mark_of_not_mem (h : key ∉ scope.keys) :
    scope.mark key = (⟨key :: scope.keys, List.nodup_cons.mpr ⟨h, scope.nodup⟩⟩, true) :=
  dif_neg (mt contains_iff.mp h)

theorem mem_mark_iff : k ∈ (scope.mark key).1.keys ↔ k = key ∨ k ∈ scope.keys := by
  by_cases h : key ∈ scope.keys
  · rw [mark_of_mem h]
    constructor
    · exact .inr
    · rintro (rfl | hk)
      · exact h
      · exact hk
  · rw [mark_of_not_mem h]
    exact List.mem_cons

@[simp] theorem extend_nil (scope : Scope) : scope.extend [] = scope := rfl

theorem extend_extend (scope : Scope) (keys more : List Text) :
    (scope.extend keys).extend more = scope.extend (keys ++ more) :=
  List.foldl_append.symm

theorem mem_extend_iff : k ∈ (scope.extend keys).keys ↔ k ∈ keys ∨ k ∈ scope.keys := by
  induction keys generalizing scope with
  | nil => simp
  | cons key keys ih =>
    calc k ∈ ((scope.mark key).1.extend keys).keys
        ↔ k ∈ keys ∨ k ∈ (scope.mark key).1.keys := ih
      _ ↔ k ∈ key :: keys ∨ k ∈ scope.keys := by
        rw [mem_mark_iff, List.mem_cons, or_left_comm, or_assoc]

theorem size_extend (hnew : ∀ key ∈ keys, key ∉ scope.keys) (hnodup : keys.Nodup) :
    (scope.extend keys).size = scope.size + keys.length := by
  induction keys generalizing scope with
  | nil => rfl
  | cons key keys ih =>
    obtain ⟨hkey, hkeys⟩ := List.forall_mem_cons.mp hnew
    obtain ⟨hfirst, hrest⟩ := List.nodup_cons.mp hnodup
    have hlater : ∀ k ∈ keys, k ∉ (scope.mark key).1.keys := by
      intro k hk hmem
      rcases mem_mark_iff.mp hmem with rfl | hold
      · exact hfirst hk
      · exact hkeys k hk hold
    have hsize : (scope.mark key).1.size = scope.size + 1 := by
      rw [mark_of_not_mem hkey]
      rfl
    refine (ih hlater hrest).trans ?_
    rw [hsize, List.length_cons]
    omega

end Scope

inductive Outcome where
  | literal
  | reference (term : Term)
  | definition (term : Term) (kind : EntryKind)
  deriving DecidableEq, Repr

namespace Outcome

/-- What stands in place of a match with this outcome. -/
def shown (vocabulary : Vocabulary) (matched : Text) : Outcome → Text
  | .literal => matched
  | .reference term => crossReference vocabulary term matched
  | .definition term kind => fullDefinition vocabulary term kind matched

def definedKey? : Outcome → Option Text
  | .definition term _ => some term.key
  | _ => none

def isReference : Outcome → Bool
  | .reference _ => true
  | _ => false

def tally (outcome : Outcome) : Tally where
  matched := 1
  defined := outcome.definedKey?.toList.length
  redirected := outcome.isReference.toNat

end Outcome

namespace Annotator
variable (annotator : Annotator)

/-- The canonical key of a match that is not redirected. -/
def countedKey? (found : Match Nat) : Option Text :=
  (annotator.meaning? found).bind fun (entry, term) =>
    if annotator.isRedirected found entry term then none else some term.key

def refers (found : Match Nat) : Bool :=
  (annotator.meaning? found).any fun (entry, term) => annotator.isRedirected found entry term

/-- What becomes of a match, given the keys that have their definition already. -/
def outcome (seen : List Text) (found : Match Nat) : Outcome :=
  match annotator.meaning? found with
  | none => .literal
  | some (entry, term) =>
    if annotator.isRedirected found entry term then .reference term
    else if seen.contains term.key then .literal
    else .definition term entry.kind

/-- What becomes of matches. The scope counts, and so do the matches before that are not
redirected. -/
def outcomes (scope : Scope) (found : List (Match Nat)) : List Outcome :=
  found.mapIdx fun place m =>
    annotator.outcome (scope.keys ++ (found.take place).filterMap annotator.countedKey?) m

def definedKeys (scope : Scope) (found : List (Match Nat)) : List Text :=
  (annotator.outcomes scope found).filterMap Outcome.definedKey?

variable {annotator : Annotator} {seen seen' : List Text} {m : Match Nat}

theorem outcome_congr (h : ∀ key, key ∈ seen ↔ key ∈ seen') (m : Match Nat) :
    annotator.outcome seen m = annotator.outcome seen' m := by
  have hcontains (key : Text) : seen.contains key = seen'.contains key := by
    rw [Bool.eq_iff_iff, List.contains_iff_mem, List.contains_iff_mem, h]
  unfold outcome
  simp only [hcontains]

theorem getElem?_outcomes {scope : Scope} {found : List (Match Nat)} {place : Nat}
    (h : found[place]? = some m) : (annotator.outcomes scope found)[place]? = some
      (annotator.outcome (scope.keys ++ (found.take place).filterMap annotator.countedKey?) m) := by
  rw [outcomes, List.getElem?_mapIdx, h, Option.map_some]

/-- Rendering gives a match its outcome and adds the key that is defined to the scope. -/
theorem render_eq (scope : Scope) (m : Match Nat) :
    annotator.render scope m =
      ⟨(annotator.outcome scope.keys m).shown annotator.vocabulary m.text,
        scope.extend (annotator.outcome scope.keys m).definedKey?.toList,
        (annotator.outcome scope.keys m).tally⟩ := by
  unfold render outcome
  cases annotator.meaning? m with
  | none => rfl
  | some meaning =>
    obtain ⟨entry, term⟩ := meaning
    dsimp only
    by_cases hredirected : annotator.isRedirected m entry term = true
    · rw [if_pos hredirected, if_pos hredirected, renderReference_eq]
      rfl
    · rw [if_neg hredirected, if_neg hredirected]
      by_cases hseen : term.key ∈ scope.keys
      · rw [Scope.mark_of_mem hseen, if_pos (List.contains_iff_mem.mpr hseen)]
        rfl
      · rw [Scope.mark_of_not_mem hseen, if_neg (hseen ∘ List.contains_iff_mem.mp)]
        simp only [Outcome.shown, Outcome.definedKey?, Option.toList_some, Scope.extend,
          List.foldl_cons, List.foldl_nil, Scope.mark_of_not_mem hseen, renderDefinition_eq]
        rfl

theorem definedKey?_outcome (seen : List Text) (m : Match Nat) :
    (annotator.outcome seen m).definedKey? = (annotator.countedKey? m).filter (· ∉ seen) := by
  unfold outcome countedKey?
  cases annotator.meaning? m with
  | none => rfl
  | some meaning =>
    obtain ⟨entry, term⟩ := meaning
    rw [Option.bind_some]
    dsimp only
    split_ifs with hredirected hseen
    · rfl
    · rw [List.contains_iff_mem] at hseen
      simp [Outcome.definedKey?, Option.filter, hseen]
    · rw [List.contains_iff_mem] at hseen
      simp [Outcome.definedKey?, Option.filter, hseen]

theorem isReference_outcome (seen : List Text) (m : Match Nat) :
    (annotator.outcome seen m).isReference = annotator.refers m := by
  unfold outcome refers
  cases annotator.meaning? m with
  | none => rfl
  | some meaning =>
    obtain ⟨entry, term⟩ := meaning
    rw [Option.any_some]
    dsimp only
    split_ifs with hredirected hseen
    · exact hredirected.symm
    · exact (Bool.eq_false_iff.mpr hredirected).symm
    · exact (Bool.eq_false_iff.mpr hredirected).symm

/-- A key is in the scope behind a match when it was before or the match is counted for it. -/
theorem mem_render_scope_iff (scope : Scope) (m : Match Nat) (key : Text) :
    key ∈ (annotator.render scope m).scope.keys ↔
      key ∈ scope.keys ∨ annotator.countedKey? m = some key := by
  rw [render_eq, Scope.mem_extend_iff, definedKey?_outcome, Option.mem_toList,
    Option.filter_eq_some_iff, decide_eq_true_eq]
  by_cases hseen : key ∈ scope.keys
  · simp only [hseen, or_true, true_or]
  · simp only [hseen, not_false_eq_true, and_true, or_false, false_or]

theorem outcomes_cons (scope : Scope) (m : Match Nat) (later : List (Match Nat)) :
    annotator.outcomes scope (m :: later) = annotator.outcome scope.keys m ::
      annotator.outcomes (annotator.render scope m).scope later := by
  unfold outcomes
  rw [List.mapIdx_cons, List.take_zero, List.filterMap_nil, List.append_nil]
  refine congrArg _ (congrFun (congrArg _ ?_) later)
  funext place m'
  apply outcome_congr
  intro key
  simp only [List.take_succ_cons, List.mem_append, mem_render_scope_iff, List.mem_filterMap,
    List.mem_cons, exists_eq_or_imp, or_assoc]

theorem definedKeys_cons (scope : Scope) (m : Match Nat) (later : List (Match Nat)) :
    annotator.definedKeys scope (m :: later) =
      (annotator.outcome scope.keys m).definedKey?.toList ++
        annotator.definedKeys (annotator.render scope m).scope later := by
  rw [definedKeys, outcomes_cons, List.filterMap_cons]
  cases (annotator.outcome scope.keys m).definedKey? <;> rfl

/-- The scope behind a match is the scope before it with the key that the match defines. -/
theorem extend_render (scope : Scope) (m : Match Nat) (later : List (Match Nat)) :
    (annotator.render scope m).scope.extend
        (annotator.definedKeys (annotator.render scope m).scope later) =
      scope.extend (annotator.definedKeys scope (m :: later)) := by
  rw [definedKeys_cons, ← Scope.extend_extend, render_eq]

theorem outcomes_append (scope : Scope) (found later : List (Match Nat)) :
    annotator.outcomes scope (found ++ later) = annotator.outcomes scope found ++
      annotator.outcomes (scope.extend (annotator.definedKeys scope found)) later := by
  induction found generalizing scope with
  | nil => rfl
  | cons m found ih =>
    rw [List.cons_append, outcomes_cons, ih, extend_render, outcomes_cons, List.cons_append]

theorem definedKeys_append (scope : Scope) (found later : List (Match Nat)) :
    annotator.definedKeys scope (found ++ later) = annotator.definedKeys scope found ++
      annotator.definedKeys (scope.extend (annotator.definedKeys scope found)) later := by
  rw [definedKeys, outcomes_append, List.filterMap_append]
  rfl

/-- A key gets its definition once when it is new and counted, and else never. -/
theorem count_definedKeys (scope : Scope) (found : List (Match Nat)) (key : Text) :
    (annotator.definedKeys scope found).count key =
      if key ∉ scope.keys ∧ ∃ m ∈ found, annotator.countedKey? m = some key then 1 else 0 := by
  induction found generalizing scope with
  | nil => simp [definedKeys, outcomes]
  | cons m later ih =>
    have hfirst : (annotator.outcome scope.keys m).definedKey?.toList.count key =
        if key ∉ scope.keys ∧ annotator.countedKey? m = some key then 1 else 0 := by
      have hmem : key ∈ (annotator.outcome scope.keys m).definedKey?.toList ↔
          key ∉ scope.keys ∧ annotator.countedKey? m = some key := by
        rw [definedKey?_outcome, Option.mem_toList, Option.filter_eq_some_iff, decide_eq_true_eq,
          and_comm]
      have hnodup : (annotator.outcome scope.keys m).definedKey?.toList.Nodup :=
        Option.toList_nodup _
      rw [hnodup.count]
      simp only [hmem]
    rw [definedKeys_cons, List.count_append, ih, hfirst]
    simp only [mem_render_scope_iff, List.mem_cons, exists_eq_or_imp]
    by_cases hseen : key ∈ scope.keys
    · simp [hseen]
    · by_cases hm : annotator.countedKey? m = some key
      · simp [hseen, hm]
      · simp [hseen, hm]

theorem countP_outcomes (scope : Scope) (found : List (Match Nat)) :
    (annotator.outcomes scope found).countP Outcome.isReference =
      found.countP annotator.refers := by
  induction found generalizing scope with
  | nil => rfl
  | cons m later ih => rw [outcomes_cons, List.countP_cons, List.countP_cons, ih,
      isReference_outcome]

theorem length_outcomes (scope : Scope) (found : List (Match Nat)) :
    (annotator.outcomes scope found).length = found.length :=
  List.length_mapIdx

theorem replaceFrom_scope_tally (scope : Scope) (offset : Nat) (rest : Text)
    (found : List (Match Nat)) :
    (annotator.replaceFrom scope offset rest found).scope =
        scope.extend (annotator.definedKeys scope found) ∧
      (annotator.replaceFrom scope offset rest found).tally =
        ⟨found.length, (annotator.definedKeys scope found).length,
          found.countP annotator.refers⟩ := by
  induction found generalizing scope offset rest with
  | nil => exact ⟨rfl, rfl⟩
  | cons m later ih =>
    obtain ⟨hscope, htally⟩ := ih (annotator.render scope m).scope m.stop
      (splitAtByte (m.stop - m.start) (splitAtByte (m.start - offset) rest).2).2
    refine ⟨?_, ?_⟩
    · rw [← extend_render, ← hscope]
      rfl
    · have hrender : (annotator.render scope m).tally =
          ⟨1, (annotator.outcome scope.keys m).definedKey?.toList.length,
            (annotator.refers m).toNat⟩ := by
        rw [render_eq, ← isReference_outcome scope.keys]
        rfl
      rw [replaceFrom, definedKeys_cons]
      simp only [append, hrender, htally, List.length_cons, List.length_append,
        List.countP_cons, Nat.zero_add]
      refine congrArg₂ (fun a b => (⟨a, _, b⟩ : Tally)) (Nat.add_comm _ _) ?_
      cases annotator.refers m <;> simp [Nat.add_comm]

theorem scope_annotateWithin (scope : Scope) (text : Text) :
    (annotator.annotateWithin scope text).scope =
      scope.extend (annotator.definedKeys scope (annotator.find text)) :=
  (replaceFrom_scope_tally scope 0 text (annotator.find text)).1

theorem tally_annotateWithin (scope : Scope) (text : Text) :
    (annotator.annotateWithin scope text).tally =
      ⟨(annotator.find text).length,
        (annotator.definedKeys scope (annotator.find text)).length,
        (annotator.find text).countP annotator.refers⟩ :=
  (replaceFrom_scope_tally scope 0 text (annotator.find text)).2

end Annotator
end Gloss
