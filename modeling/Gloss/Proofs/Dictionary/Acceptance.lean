import Gloss.Dictionary.Build
import Gloss.Proofs.Text.Trimming
import Mathlib.Data.List.Forall2

/-! What a build accepts as canonical terms. Each definition gives one term, in order, and no two
terms have the same case fold. -/
namespace Gloss
namespace Text

def filled? (field : Option Text) : Option Text :=
  (field.filter (!·.isBlank)).map trim

theorem filled?_eq (field : Option Text) : filled? field = field.bind nonBlank? := by
  cases field with
  | none => rfl
  | some t =>
    unfold filled?
    cases hblank : t.isBlank with
    | true =>
      have ht := trim_eq_nil_iff.mpr hblank
      simp [hblank, nonBlank?, ht]
    | false =>
      have ht : t.trim ≠ [] := fun h => by simp [trim_eq_nil_iff.mp h] at hblank
      simp [hblank, nonBlank?_eq_some_iff.mpr ⟨rfl, ht⟩]

end Text

namespace Definition
open Text

def name? (raw : Definition) : Option Text :=
  filled? raw.term

/-- The identifier that a definition goes by: its own, else the one its term gives, else the case
fold of its term. -/
def effectiveId? (raw : Definition) : Option Text :=
  raw.name?.map fun name =>
    (filled? raw.id).getD
      (if Identifier.ofTerm name ≠ [] then Identifier.ofTerm name else foldCase name)

theorem effectiveId?_eq {raw : Definition} {name : Text} (h : raw.name? = some name) :
    raw.effectiveId? = some (Dictionary.identifierOf raw.id name (foldCase name)) := by
  rw [effectiveId?, h, filled?_eq, Dictionary.identifierOf, Option.map_some]
  cases raw.id.bind nonBlank? with
  | some id => rfl
  | none => rw [Option.getD_none, ite_not]

end Definition

namespace Dictionary
open Text

def termOf (raw : Definition) (name definition : Text) : Term where
  id := identifierOf raw.id name (foldCase name)
  name
  definition
  key := foldCase name
  explanation := raw.explanation.bind nonBlank?
  examples := raw.examples.filter (!·.isBlank)
  category := raw.category.bind nonBlank?

/-- The definition gives the term, whatever was accepted before it. -/
def Gives (raw : Definition) (term : Term) : Prop :=
  ∃ name definition, raw.term.bind nonBlank? = some name ∧
    raw.definition.bind nonBlank? = some definition ∧ term = termOf raw name definition

section Gives
variable {raw : Definition} {term : Term}

theorem gives_iff : Gives raw term ↔ ∃ name definition, raw.name? = some name ∧
    filled? raw.definition = some definition ∧ term = termOf raw name definition := by
  simp only [Gives, Definition.name?, filled?_eq]

theorem Gives.name?_eq (h : Gives raw term) : raw.name? = some term.name := by
  obtain ⟨name, definition, hname, -, rfl⟩ := gives_iff.mp h
  exact hname

theorem Gives.effectiveId?_eq (h : Gives raw term) : raw.effectiveId? = some term.id := by
  obtain ⟨name, definition, hname, -, rfl⟩ := gives_iff.mp h
  exact Definition.effectiveId?_eq hname

theorem key_of_gives (h : Gives raw term) : term.key = foldCase term.name := by
  obtain ⟨name, definition, -, -, rfl⟩ := h
  rfl

end Gives

private theorem exists_mem_of_mem {α β : Type} {R : α → β → Prop} {l : List α} {m : List β}
    (h : List.Forall₂ R l m) {a : α} (ha : a ∈ l) : ∃ b ∈ m, R a b := by
  induction h with
  | nil => cases ha
  | @cons a b l m hab _ ih =>
    rcases List.mem_cons.mp ha with rfl | ha
    · exact ⟨b, List.mem_cons_self, hab⟩
    · obtain ⟨c, hc, hac⟩ := ih ha
      exact ⟨c, List.mem_cons_of_mem b hc, hac⟩

theorem exists_definition {definitions : List Definition} {terms : List Term}
    (h : List.Forall₂ Gives definitions terms) {term : Term} (hterm : term ∈ terms) :
    ∃ raw ∈ definitions, Gives raw term :=
  exists_mem_of_mem h.flip hterm

theorem exists_term {definitions : List Definition} {terms : List Term}
    (h : List.Forall₂ Gives definitions terms) {raw : Definition} (hraw : raw ∈ definitions) :
    ∃ term ∈ terms, Gives raw term :=
  exists_mem_of_mem h hraw

theorem find?_eq_none_iff {terms : List Term} {field : Term → Text} {x : Text} :
    terms.find? (field · == x) = none ↔ x ∉ terms.map field := by
  simp [List.find?_eq_none]

theorem find?_eq_some_iff_of_nodup {α : Type} (key : α → Text) {l : List α}
    (h : (l.map key).Nodup) {x : Text} {a : α} :
    l.find? (key · == x) = some a ↔ a ∈ l ∧ key a = x := by
  constructor
  · intro hfind
    have hkey := List.find?_some hfind
    exact ⟨List.mem_of_find?_eq_some hfind, beq_iff_eq.mp hkey⟩
  · rintro ⟨ha, rfl⟩
    obtain ⟨b, hb⟩ : ∃ b, l.find? (key · == key a) = some b :=
      Option.isSome_iff_exists.mp (List.find?_isSome.mpr ⟨a, ha, beq_self_eq_true _⟩)
    have hkey := List.find?_some hb
    rw [hb, List.inj_on_of_nodup_map h (List.mem_of_find?_eq_some hb) ha (beq_iff_eq.mp hkey)]

/-- The four ways in which a definition is refused, and the term it gives otherwise. -/
theorem accept_eq (terms : List Term) (index : Nat) (raw : Definition) :
    accept terms index raw =
      match raw.name?, filled? raw.definition with
      | none, _ => .error (.missingField index .term)
      | some _, none => .error (.missingField index .definition)
      | some name, some definition =>
        let term := termOf raw name definition
        match terms.find? (·.key == term.key), terms.find? (·.id == term.id) with
        | some existing, _ => .error (.duplicateTerm index name existing.name)
        | none, some existing => .error (.duplicateId index term.id name existing.name)
        | none, none => .ok term := by
  rw [Definition.name?, filled?_eq, filled?_eq]
  unfold accept required
  cases raw.term.bind nonBlank? with
  | none => rfl
  | some name =>
    cases raw.definition.bind nonBlank? with
    | none => rfl
    | some definition =>
      simp only [bind, Except.bind, termOf]
      cases terms.find? (·.key == foldCase name) with
      | some existing => rfl
      | none =>
        cases terms.find? (·.id == identifierOf raw.id name (foldCase name)) with
        | some existing => rfl
        | none => rfl

/-- A definition is accepted when it gives a term whose key and identifier are new. -/
theorem accept_eq_ok_iff {terms : List Term} {index : Nat} {raw : Definition} {term : Term} :
    accept terms index raw = .ok term ↔
      Gives raw term ∧ term.key ∉ terms.map Term.key ∧ term.id ∉ terms.map Term.id := by
  rw [accept_eq, gives_iff, ← find?_eq_none_iff, ← find?_eq_none_iff]
  constructor
  · intro h
    split at h
    · cases h
    · cases h
    · next name definition hname hdefinition =>
      dsimp only at h
      split at h
      · cases h
      · cases h
      · next hkey hid =>
        cases h
        exact ⟨⟨name, definition, hname, hdefinition, rfl⟩, hkey, hid⟩
  · rintro ⟨⟨name, definition, hname, hdefinition, rfl⟩, hkey, hid⟩
    simp only [hname, hdefinition, hkey, hid]

/-- Each definition gives one term, in order, and no key and no identifier comes twice. -/
theorem gives_of_acceptAll {definitions : List Definition} {terms accepted : List Term}
    (h : acceptAll terms definitions = .ok accepted) (hkeys : (terms.map Term.key).Nodup)
    (hids : (terms.map Term.id).Nodup) :
    (∃ more, accepted = terms ++ more ∧ List.Forall₂ Gives definitions more) ∧
      (accepted.map Term.key).Nodup ∧ (accepted.map Term.id).Nodup := by
  induction definitions generalizing terms with
  | nil =>
    cases h
    exact ⟨⟨[], (List.append_nil _).symm, .nil⟩, hkeys, hids⟩
  | cons raw rest ih =>
    unfold acceptAll at h
    cases haccept : accept terms terms.length raw with
    | error fault => simp [haccept, bind, Except.bind] at h
    | ok term =>
      simp only [haccept, bind, Except.bind] at h
      obtain ⟨hgives, hkey, hid⟩ := accept_eq_ok_iff.mp haccept
      obtain ⟨⟨more, rfl, hmore⟩, hnodup⟩ :=
        ih h (nodup_map_concat hkeys hkey) (nodup_map_concat hids hid)
      exact ⟨⟨term :: more, (List.append_cons _ _ _).symm, .cons hgives hmore⟩, hnodup⟩

theorem acceptAll_of_gives {definitions : List Definition} {terms more : List Term}
    (h : List.Forall₂ Gives definitions more) (hkeys : ((terms ++ more).map Term.key).Nodup)
    (hids : ((terms ++ more).map Term.id).Nodup) :
    acceptAll terms definitions = .ok (terms ++ more) := by
  induction h generalizing terms with
  | nil => rw [acceptAll, List.append_nil]
  | @cons raw term rest more hgives _ ih =>
    have hnew (field : Term → Text) (hnodup : ((terms ++ term :: more).map field).Nodup) :
        field term ∉ terms.map field := by
      intro hmem
      rw [List.map_append, List.nodup_append] at hnodup
      exact hnodup.2.2 _ hmem _ List.mem_cons_self rfl
    have haccept : accept terms terms.length raw = .ok term :=
      accept_eq_ok_iff.mpr ⟨hgives, hnew _ hkeys, hnew _ hids⟩
    rw [List.append_cons] at hkeys hids ⊢
    unfold acceptAll
    simp only [haccept, bind, Except.bind]
    exact ih hkeys hids

end Dictionary
end Gloss
