import Gloss.Proofs.Dictionary.Acceptance
import Mathlib.Data.List.Forall2
import Mathlib.Data.Nat.Find

/-! Which sources a build rejects, told by the definitions as they are written. The first definition
at fault decides, and of its faults the first in a fixed order. -/
namespace Gloss
open Text

/-- What is wrong with a definition behind others. Each fault counts only where those before it
are absent. -/
inductive Definition.Fault (before : List Definition) (raw : Definition) : BuildError → Prop where
  | noTerm (hname : raw.name? = none) :
      Fault before raw (.missingField before.length .term)
  | noDefinition {name : Text} (hname : raw.name? = some name)
      (hdefinition : filled? raw.definition = none) :
      Fault before raw (.missingField before.length .definition)
  | sameTerm {name definition existing : Text} {earlier : Definition}
      (hname : raw.name? = some name) (hdefinition : filled? raw.definition = some definition)
      (hearlier : earlier ∈ before) (hexisting : earlier.name? = some existing)
      (hsame : foldCase existing = foldCase name) :
      Fault before raw (.duplicateTerm before.length name existing)
  | sameId {name definition id existing : Text} {earlier : Definition}
      (hname : raw.name? = some name) (hdefinition : filled? raw.definition = some definition)
      (hnew : ∀ other ∈ before, other.name?.map foldCase ≠ some (foldCase name))
      (hid : raw.effectiveId? = some id) (hearlier : earlier ∈ before)
      (hexisting : earlier.name? = some existing) (hsame : earlier.effectiveId? = some id) :
      Fault before raw (.duplicateId before.length id name existing)

def FaultAt (definitions : List Definition) (i : Nat) (error : BuildError) : Prop :=
  ∃ raw, definitions[i]? = some raw ∧ raw.Fault (definitions.take i) error

def FirstFault (definitions : List Definition) (i : Nat) (error : BuildError) : Prop :=
  FaultAt definitions i error ∧ ∀ j < i, ∀ fault, ¬ FaultAt definitions j fault

def Definition.core (raw : Definition) : Definition :=
  { id := raw.id, term := raw.term, definition := raw.definition }

namespace Dictionary
open Definition

section Step
variable {before : List Definition} {terms : List Term} {raw : Definition} {error : BuildError}

private theorem key_new_iff (hgives : List.Forall₂ Gives before terms) {key : Text} :
    terms.find? (·.key == key) = none ↔
      ∀ other ∈ before, other.name?.map foldCase ≠ some key := by
  rw [find?_eq_none_iff, List.mem_map]
  constructor
  · intro hnew other hother he
    obtain ⟨term, hterm, hgiven⟩ := exists_term hgives hother
    apply hnew
    rw [hgiven.name?_eq, Option.map_some, ← key_of_gives hgiven] at he
    exact ⟨term, hterm, Option.some.inj he⟩
  · rintro hnew ⟨term, hterm, rfl⟩
    obtain ⟨other, hother, hgiven⟩ := exists_definition hgives hterm
    apply hnew other hother
    rw [hgiven.name?_eq, Option.map_some, ← key_of_gives hgiven]

/-- A definition is refused for its fault. -/
theorem accept_eq_error_iff (hgives : List.Forall₂ Gives before terms)
    (hkeys : (terms.map Term.key).Nodup) (hids : (terms.map Term.id).Nodup) :
    accept terms before.length raw = .error error ↔ raw.Fault before error := by
  rw [accept_eq]
  constructor
  · intro h
    split at h
    · next hname =>
      cases h
      exact .noTerm hname
    · next name hname hdefinition =>
      cases h
      exact .noDefinition hname hdefinition
    · next name definition hname hdefinition =>
      dsimp only at h
      split at h
      · next existing _ hkey =>
        cases h
        have hsame := List.find?_some hkey
        obtain ⟨earlier, hearlier, hgiven⟩ :=
          exists_definition hgives (List.mem_of_find?_eq_some hkey)
        refine .sameTerm hname hdefinition hearlier hgiven.name?_eq ?_
        rw [← key_of_gives hgiven]
        exact beq_iff_eq.mp hsame
      · next existing hkey hid =>
        cases h
        obtain ⟨earlier, hearlier, hgiven⟩ :=
          exists_definition hgives (List.mem_of_find?_eq_some hid)
        have hsame := List.find?_some hid
        refine .sameId hname hdefinition ((key_new_iff hgives).mp hkey) (effectiveId?_eq hname)
          hearlier hgiven.name?_eq ?_
        rw [hgiven.effectiveId?_eq, beq_iff_eq.mp hsame]
      · cases h
  · intro h
    cases h with
    | noTerm hname => simp only [hname]
    | noDefinition hname hdefinition => simp only [hname, hdefinition]
    | sameTerm hname hdefinition hearlier hexisting hsame =>
      obtain ⟨term, hterm, hgiven⟩ := exists_term hgives hearlier
      rw [hgiven.name?_eq, Option.some.injEq] at hexisting
      subst hexisting
      have hfind := (find?_eq_some_iff_of_nodup Term.key hkeys).mpr
        ⟨hterm, (key_of_gives hgiven).trans hsame⟩
      simp only [hname, hdefinition, termOf, hfind]
    | sameId hname hdefinition hnew hid hearlier hexisting hsame =>
      obtain ⟨term, hterm, hgiven⟩ := exists_term hgives hearlier
      rw [hgiven.name?_eq, Option.some.injEq] at hexisting
      rw [hgiven.effectiveId?_eq, Option.some.injEq] at hsame
      rw [effectiveId?_eq hname, Option.some.injEq] at hid
      subst hexisting hid
      have hkey := (key_new_iff hgives).mpr hnew
      have hfind := (find?_eq_some_iff_of_nodup Term.id hids).mpr ⟨hterm, hsame⟩
      simp only [hname, hdefinition, termOf, hkey, hfind]

end Step

section Run

theorem faultAt_length_iff {before rest : List Definition} {raw : Definition} {error : BuildError} :
    FaultAt (before ++ raw :: rest) before.length error ↔ raw.Fault before error := by
  simp [FaultAt]

/-- Behind accepted definitions the first one at fault decides. -/
theorem acceptAll_eq_error_iff {before rest : List Definition} {terms : List Term}
    (hgives : List.Forall₂ Gives before terms) (hkeys : (terms.map Term.key).Nodup)
    (hids : (terms.map Term.id).Nodup) {error : BuildError} :
    acceptAll terms rest = .error error ↔
      ∃ i, before.length ≤ i ∧ FaultAt (before ++ rest) i error ∧
        ∀ j, before.length ≤ j → j < i → ∀ fault, ¬ FaultAt (before ++ rest) j fault := by
  -- On the definitions left; those passed have given terms, and none of them is at fault.
  induction rest generalizing before terms with
  | nil =>
    rw [acceptAll, List.append_nil]
    constructor
    · intro h
      cases h
    · rintro ⟨i, hi, ⟨raw, hraw, -⟩, -⟩
      rw [List.getElem?_eq_none hi] at hraw
      cases hraw
  | cons raw rest ih =>
    have hstep (fault : BuildError) : FaultAt (before ++ raw :: rest) before.length fault ↔
        accept terms terms.length raw = .error fault := by
      rw [faultAt_length_iff, ← hgives.length_eq, accept_eq_error_iff hgives hkeys hids]
    rw [acceptAll]
    cases haccept : accept terms terms.length raw with
    | error first =>
      simp only [bind, Except.bind, Except.error.injEq]
      constructor
      · rintro rfl
        exact ⟨before.length, Nat.le_refl _, (hstep first).mpr haccept, by omega⟩
      · rintro ⟨i, hi, hfault, hleast⟩
        have hi' : before.length = i := by
          apply Nat.le_antisymm hi
          apply Nat.le_of_not_lt
          intro hlt
          exact hleast _ (Nat.le_refl _) hlt first ((hstep first).mpr haccept)
        subst hi'
        rw [hstep, haccept] at hfault
        exact Except.error.inj hfault
    | ok term =>
      obtain ⟨hgiven, hkey, hid⟩ := accept_eq_ok_iff.mp haccept
      have hsound (fault : BuildError) : ¬ FaultAt (before ++ raw :: rest) before.length fault := by
        rw [hstep, haccept]
        intro h
        cases h
      have hrest := ih (List.rel_append hgives (.cons hgiven .nil)) (nodup_map_concat hkeys hkey)
        (nodup_map_concat hids hid)
      simp only [bind, Except.bind]
      rw [hrest, List.length_append, List.length_singleton, ← List.append_cons]
      constructor
      · rintro ⟨i, hi, hfault, hleast⟩
        refine ⟨i, by omega, hfault, ?_⟩
        intro j hj hlt
        rcases Nat.eq_or_lt_of_le hj with rfl | hj
        · exact hsound
        · exact hleast j hj hlt
      · rintro ⟨i, hi, hfault, hleast⟩
        have hne : before.length ≠ i := by
          rintro rfl
          exact hsound error hfault
        exact ⟨i, by omega, hfault, fun j hj => hleast j (by omega)⟩

theorem build_eq_error_iff {source : Source} {rules : InflectionRules} {error : BuildError} :
    build source rules = .error error ↔
      (∃ fault, rules.fault? = some fault ∧ error = .invalidRules fault) ∨
        rules.fault? = none ∧ acceptAll [] source.definitions = .error error := by
  unfold build
  cases rules.fault? with
  | some fault => simp [bind, Except.bind, throw, throwThe, MonadExceptOf.throw, eq_comm]
  | none =>
    cases acceptAll [] source.definitions with
    | error fault => simp [bind, Except.bind]
    | ok terms => simp [bind, Except.bind, pure, Except.pure]

theorem index?_of_faultAt {definitions : List Definition} {i : Nat} {error : BuildError}
    (h : FaultAt definitions i error) : error.index? = some i := by
  obtain ⟨raw, hraw, hfault⟩ := h
  obtain ⟨hlt, -⟩ := List.getElem?_eq_some_iff.mp hraw
  have hlength : (definitions.take i).length = i := List.length_take_of_le (Nat.le_of_lt hlt)
  cases hfault with
  | noTerm | noDefinition | sameTerm | sameId => exact congrArg some hlength

theorem exists_firstFault {definitions : List Definition} {i : Nat} {error : BuildError}
    (h : FaultAt definitions i error) : ∃ j fault, FirstFault definitions j fault := by
  classical
  have hfault : ∃ j fault, FaultAt definitions j fault := ⟨i, error, h⟩
  obtain ⟨fault, hfirst⟩ := Nat.find_spec hfault
  refine ⟨Nat.find hfault, fault, hfirst, ?_⟩
  intro j hj fault hj'
  exact Nat.find_min hfault hj ⟨fault, hj'⟩

theorem build_eq_error_iff_firstFault (source : Source) (rules : InflectionRules)
    (error : BuildError) :
    build source rules = .error error ↔
      (∃ fault, rules.fault? = some fault ∧ error = .invalidRules fault) ∨
        rules.fault? = none ∧ ∃ i, FirstFault source.definitions i error := by
  rw [build_eq_error_iff, acceptAll_eq_error_iff .nil .nil .nil]
  simp [FirstFault]

end Run

section Core
variable {definitions others : List Definition} {error : BuildError}

private theorem exists_core_eq (h : definitions.map core = others.map core) {raw : Definition}
    (hraw : raw ∈ definitions) : ∃ other ∈ others, other.core = raw.core := by
  have hmem : raw.core ∈ others.map core := by
    rw [← h]
    exact List.mem_map_of_mem hraw
  exact List.mem_map.mp hmem

private theorem name?_core {raw other : Definition} (h : other.core = raw.core) :
    other.name? = raw.name? :=
  show other.core.name? = raw.core.name? from congrArg name? h

private theorem effectiveId?_core {raw other : Definition} (h : other.core = raw.core) :
    other.effectiveId? = raw.effectiveId? :=
  show other.core.effectiveId? = raw.core.effectiveId? from congrArg effectiveId? h

/-- A fault is seen from the three fields that every definition is checked for. -/
theorem fault_of_core (h : definitions.map core = others.map core) {raw other : Definition}
    (hcore : other.core = raw.core) (hfault : raw.Fault definitions error) :
    other.Fault others error := by
  have hlength : definitions.length = others.length := by
    rw [← List.length_map (f := core), h, List.length_map]
  have hfield : filled? other.definition = filled? raw.definition :=
    show filled? other.core.definition = filled? raw.core.definition by rw [hcore]
  cases hfault with
  | noTerm hname =>
    rw [hlength]
    exact .noTerm ((name?_core hcore).trans hname)
  | noDefinition hname hdefinition =>
    rw [hlength]
    exact .noDefinition ((name?_core hcore).trans hname) (hfield.trans hdefinition)
  | sameTerm hname hdefinition hearlier hexisting hsame =>
    obtain ⟨earlier, hearlier, he⟩ := exists_core_eq h hearlier
    rw [hlength]
    exact .sameTerm ((name?_core hcore).trans hname) (hfield.trans hdefinition) hearlier
      ((name?_core he).trans hexisting) hsame
  | sameId hname hdefinition hnew hid hearlier hexisting hsame =>
    obtain ⟨earlier, hearlier, he⟩ := exists_core_eq h hearlier
    rw [hlength]
    refine .sameId ((name?_core hcore).trans hname) (hfield.trans hdefinition) ?_
      ((effectiveId?_core hcore).trans hid) hearlier ((name?_core he).trans hexisting)
      ((effectiveId?_core he).trans hsame)
    intro later hlater
    obtain ⟨first, hfirst, he⟩ := exists_core_eq h.symm hlater
    rw [← name?_core he]
    exact hnew first hfirst

theorem faultAt_of_core (h : definitions.map core = others.map core) {i : Nat}
    (hfault : FaultAt definitions i error) : FaultAt others i error := by
  obtain ⟨raw, hraw, hfault⟩ := hfault
  have hother : others[i]?.map core = some raw.core := by
    rw [← List.getElem?_map, ← h, List.getElem?_map, hraw, Option.map_some]
  obtain ⟨other, hother, hcore⟩ := Option.map_eq_some_iff.mp hother
  refine ⟨other, hother, fault_of_core ?_ hcore hfault⟩
  rw [List.map_take, List.map_take, h]

theorem firstFault_of_core (h : definitions.map core = others.map core) {i : Nat}
    (hfault : FirstFault definitions i error) : FirstFault others i error := by
  refine ⟨faultAt_of_core h hfault.1, ?_⟩
  intro j hj fault hother
  exact hfault.2 j hj fault (faultAt_of_core h.symm hother)

end Core

/-- A build fails for the rules, whatever the source, else for the first definition at fault. What
a source holds beside identifiers, terms and definitions does not matter to that. -/
theorem build_fails_at_first_fault (source : Source) (rules : InflectionRules) :
    (∀ fault, build source rules = .error (.invalidRules fault) ↔ rules.fault? = some fault) ∧
    (rules.fault? = none →
      ((∃ error, build source rules = .error error) ↔
        ∃ i error, FaultAt source.definitions i error) ∧
      ∀ error, build source rules = .error error ↔
        ∃ i, FirstFault source.definitions i error) ∧
    ∀ other : Source, other.definitions.map core = source.definitions.map core →
      ∀ error, build other rules = .error error ↔ build source rules = .error error := by
  have herror := build_eq_error_iff_firstFault source rules
  have hsound (hrules : rules.fault? = none) (error : BuildError) :
      build source rules = .error error ↔ ∃ i, FirstFault source.definitions i error := by
    rw [herror, hrules]
    simp
  refine ⟨?_, ?_, ?_⟩
  · intro fault
    rw [herror]
    constructor
    · rintro (⟨_, hfault, he⟩ | ⟨-, i, hfault, -⟩)
      · cases he
        exact hfault
      · cases index?_of_faultAt hfault
    · intro hfault
      exact .inl ⟨fault, hfault, rfl⟩
  · intro hrules
    refine ⟨?_, hsound hrules⟩
    constructor
    · rintro ⟨error, h⟩
      obtain ⟨i, hfault, -⟩ := (hsound hrules error).mp h
      exact ⟨i, error, hfault⟩
    · rintro ⟨i, error, hfault⟩
      obtain ⟨j, first, hfirst⟩ := exists_firstFault hfault
      exact ⟨first, (hsound hrules first).mpr ⟨j, hfirst⟩⟩
  · intro other hcore error
    rw [herror, build_eq_error_iff_firstFault]
    apply or_congr_right
    apply and_congr_right'
    exact exists_congr fun i => ⟨firstFault_of_core hcore, firstFault_of_core hcore.symm⟩

def faultySource : Source where
  definitions :=
    [{ id := some " hond ".toList, term := some "Kat".toList, definition := some "dier".toList },
     { term := some "!?".toList, definition := some "tekens".toList },
     { id := some "hond".toList, term := some " KAT ".toList, definition := some "dier".toList },
     {}]

def faultySource' : Source where
  definitions := faultySource.definitions.map fun raw =>
    { raw with inflections := ["kat".toList], category := some "C".toList }
  alternativeSpellings := [{ refersTo := some "kat".toList }]

theorem build_fails_at_first_fault_duplicate :
    ({} : InflectionRules).fault? = none ∧
    FirstFault faultySource.definitions 2 (.duplicateTerm 2 "KAT".toList "Kat".toList) ∧
    FaultAt faultySource.definitions 3 (.missingField 3 .term) ∧
    build faultySource' {} = .error (.duplicateTerm 2 "KAT".toList "Kat".toList) := by
  have hrules : ({} : InflectionRules).fault? = none := by decide
  have hbuild : build faultySource {} = .error (.duplicateTerm 2 "KAT".toList "Kat".toList) := rfl
  obtain ⟨-, hfails, hcore⟩ := build_fails_at_first_fault faultySource {}
  obtain ⟨-, hfirst⟩ := hfails hrules
  refine ⟨hrules, ?_, ⟨{}, rfl, .noTerm rfl⟩, (hcore faultySource' rfl _).mpr hbuild⟩
  obtain ⟨i, hi⟩ := (hfirst _).mp hbuild
  obtain rfl : 2 = i := Option.some.inj (index?_of_faultAt hi.1)
  exact hi

end Dictionary
end Gloss
