import Gloss.Dictionary.Lookup
import Gloss.Proofs.Dictionary.Ledger
import Mathlib.Logic.Function.Basic

/-! A dictionary as it is laid out: records in two lists, a slot for every entry, and maps from
keys, identifiers and case folds to places. Each map answers what a search of the records answers,
after every step of a build, so that building the tables is building the dictionary. -/
namespace Gloss.Dictionary
open Text

/-- Where the record of an entry is. -/
inductive Slot where
  | term (place : Nat)
  | variant (place : Nat)

structure Tables where
  terms : List Term := []
  variants : List Variant := []
  slots : List Slot := []
  byKey : Text → Option Nat := fun _ => none
  byId : Text → Option Nat := fun _ => none
  /-- The slot of the entry with a case fold. -/
  registered : Text → Option Nat := fun _ => none
  dropped : Nat := 0
  drops : List Drop := []

namespace Tables

def record? (tables : Tables) : Slot → Option Entry
  | .term place => tables.terms[place]?.map .term
  | .variant place => tables.variants[place]?.map .variant

def entry? (tables : Tables) (ordinal : Nat) : Option Entry :=
  tables.slots[ordinal]?.bind tables.record?

def termByKey? (tables : Tables) (key : Text) : Option Term :=
  (tables.byKey key).bind (tables.terms[·]?)

def termById? (tables : Tables) (id : Text) : Option Term :=
  (tables.byId id).bind (tables.terms[·]?)

def existing? (tables : Tables) (fold : Text) : Option Entry :=
  (tables.registered fold).bind tables.entry?

def addTerm (tables : Tables) (term : Term) : Tables :=
  { tables with
    terms := tables.terms ++ [term]
    slots := tables.slots ++ [.term tables.terms.length]
    byKey := Function.update tables.byKey term.key (some tables.terms.length)
    byId := Function.update tables.byId term.id (some tables.terms.length)
    registered := Function.update tables.registered term.key (some tables.slots.length) }

def addVariant (tables : Tables) (variant : Variant) : Tables :=
  { tables with
    variants := tables.variants ++ [variant]
    slots := tables.slots ++ [.variant tables.variants.length]
    registered :=
      Function.update tables.registered (foldCase variant.text) (some tables.slots.length) }

def drop (tables : Tables) (reason : Drop) : Tables :=
  { tables with dropped := tables.dropped + 1, drops := tables.drops ++ [reason] }

def accept (tables : Tables) (raw : Definition) : Except BuildError Tables := do
  let name ← required tables.terms.length .term raw.term
  let definition ← required tables.terms.length .definition raw.definition
  let key := foldCase name
  if let some existing := tables.termByKey? key then
    throw (.duplicateTerm tables.terms.length name existing.name)
  let id := identifierOf raw.id name key
  if let some existing := tables.termById? id then
    throw (.duplicateId tables.terms.length id name existing.name)
  return tables.addTerm (termOf raw name definition)

def register (tables : Tables) (linked : Linked) : Tables :=
  match linked.text.trim with
  | [] => tables.drop (.blank linked.kind linked.canonical)
  | text =>
    match tables.existing? (foldCase text) with
    | none => tables.addVariant ⟨text, linked.canonical, linked.kind⟩
    | some existing =>
      if linked.generated && existing.canonicalKey == linked.canonical then
        tables.drop (.alreadyRegistered text linked.canonical)
      else
        tables.drop
          (.collision linked.kind text linked.canonical existing.text existing.canonicalKey)

def submit (tables : Tables) : Submission → Tables
  | .inflected canonical text generated =>
    tables.register ⟨.inflectedForm, text, canonical, generated⟩
  | .declared kind variant =>
    match variant.text with
    | none => tables.drop (.missingText kind variant.refersTo)
    | some text =>
      match variant.refersTo.bind fun id => tables.termById? id.trim with
      | none => tables.drop (.unresolved kind text variant.refersTo)
      | some term => tables.register ⟨kind, text, term.key, false⟩

def build (source : Source) (rules : InflectionRules) : Except BuildError Tables := do
  if let some fault := rules.fault? then
    throw (.invalidRules fault)
  let tables ← source.definitions.foldlM accept {}
  return (submissions source rules tables.terms).foldl submit tables

def toDictionary (tables : Tables) : Dictionary where
  terms := tables.terms
  variants := tables.variants
  dropped := tables.dropped
  drops := tables.drops

/-- Every slot has its record, and every map answers what a search of the records answers. -/
structure Sound (tables : Tables) : Prop where
  keys : ∀ term ∈ tables.terms, term.key = foldCase term.name
  slots : tables.slots.map tables.record? = tables.toDictionary.entries.map some
  byKey (x : Text) : tables.byKey x = tables.terms.findIdx? (·.key == x)
  byId (x : Text) : tables.byId x = tables.terms.findIdx? (·.id == x)
  registered (x : Text) :
    tables.registered x = tables.toDictionary.entries.findIdx? (foldCase ·.text == x)

section Search
variable {α : Type} {key : α → Text} {l : List α}

private theorem getElem?_findIdx? (p : α → Bool) (l : List α) :
    (l.findIdx? p).bind (l[·]?) = l.find? p := by
  induction l with
  | nil => rfl
  | cons a l ih =>
    rw [List.findIdx?_cons, List.find?_cons]
    cases p a with
    | true => rfl
    | false => simpa [Option.bind_map, Function.comp_def] using ih

/-- A map with an item added under a new key finds the item behind the others. -/
private theorem update_findIdx? {places : Text → Option Nat}
    (h : ∀ x, places x = l.findIdx? (key · == x)) {a : α} (hnew : l.find? (key · == key a) = none)
    (x : Text) :
    Function.update places (key a) (some l.length) x = (l ++ [a]).findIdx? (key · == x) := by
  rw [List.findIdx?_append]
  by_cases hx : x = key a
  · have hnone : l.findIdx? (key · == key a) = none := by
      rw [List.findIdx?_eq_none_iff]
      exact fun b hb => Bool.not_eq_true _ ▸ List.find?_eq_none.mp hnew b hb
    subst hx
    rw [Function.update_self, hnone]
    simp
  · rw [Function.update_of_ne hx, h]
    simp [Ne.symm hx]

end Search

variable {tables : Tables}

theorem entries_of_no_variants (h : tables.variants = []) :
    tables.toDictionary.entries = tables.terms.map .term := by
  rw [entries, toDictionary, h, List.map_nil, List.append_nil]

theorem entries_addVariant (variant : Variant) : (tables.addVariant variant).toDictionary.entries =
    tables.toDictionary.entries ++ [.variant variant] := by
  simp [entries, toDictionary, addVariant]

namespace Sound

theorem length_slots (h : tables.Sound) :
    tables.slots.length = tables.toDictionary.entries.length := by
  have hlength := congrArg List.length h.slots
  rwa [List.length_map, List.length_map] at hlength

theorem entry?_eq (h : tables.Sound) (ordinal : Nat) :
    tables.entry? ordinal = tables.toDictionary.entry? ordinal := by
  have hrecord := congrArg (·[ordinal]?) h.slots
  simp only [List.getElem?_map] at hrecord
  unfold entry? Dictionary.entry?
  cases hslot : tables.slots[ordinal]? with
  | none =>
    rw [hslot] at hrecord
    exact (Option.map_eq_none_iff.mp hrecord.symm).symm
  | some slot =>
    rw [hslot] at hrecord
    obtain ⟨entry, hentry, he⟩ := Option.map_eq_some_iff.mp hrecord.symm
    rw [hentry, he]
    rfl

theorem termByKey?_eq (h : tables.Sound) (key : Text) :
    tables.termByKey? key = tables.toDictionary.termByKey? key := by
  rw [termByKey?, h.byKey]
  exact getElem?_findIdx? _ _

theorem termById?_eq (h : tables.Sound) (id : Text) :
    tables.termById? id = tables.toDictionary.termById? id := by
  rw [termById?, h.byId]
  exact getElem?_findIdx? _ _

theorem existing?_eq (h : tables.Sound) (fold : Text) :
    tables.existing? fold = tables.toDictionary.entries.find? (foldCase ·.text == fold) := by
  have hentry : tables.entry? = tables.toDictionary.entry? := funext h.entry?_eq
  rw [existing?, h.registered, hentry]
  exact getElem?_findIdx? _ _

theorem empty : Sound {} where
  keys := List.forall_mem_nil _
  slots := rfl
  byKey _ := rfl
  byId _ := rfl
  registered _ := rfl

/-- Slots keep their records when records are added behind them. -/
theorem map_record? (h : tables.Sound) {tables' : Tables} (hterms : tables.terms <+: tables'.terms)
    (hvariants : tables.variants <+: tables'.variants) :
    tables.slots.map tables'.record? = tables.toDictionary.entries.map some := by
  obtain ⟨moreTerms, hterms⟩ := hterms
  obtain ⟨moreVariants, hvariants⟩ := hvariants
  rw [← h.slots]
  refine List.map_congr_left fun slot hslot => ?_
  obtain ⟨entry, -, hentry⟩ := List.mem_map.mp (h.slots ▸ List.mem_map_of_mem hslot)
  rw [← hentry]
  cases slot with
  | term place =>
    obtain ⟨term, hterm, rfl⟩ := Option.map_eq_some_iff.mp hentry.symm
    rw [record?, ← hterms, List.getElem?_append_left (List.getElem?_eq_some_iff.mp hterm).1, hterm]
    rfl
  | variant place =>
    obtain ⟨variant, hvariant, rfl⟩ := Option.map_eq_some_iff.mp hentry.symm
    rw [record?, ← hvariants, List.getElem?_append_left (List.getElem?_eq_some_iff.mp hvariant).1,
      hvariant]
    rfl

/-- While there are no variants, an accepted term is added behind the other terms. -/
theorem addTerm (h : tables.Sound) (hvariants : tables.variants = []) {term : Term}
    (hterm : term.key = foldCase term.name)
    (hkey : tables.terms.find? (·.key == term.key) = none)
    (hid : tables.terms.find? (·.id == term.id) = none) : (tables.addTerm term).Sound := by
  have hentries := entries_of_no_variants hvariants
  have hentries' : (tables.addTerm term).toDictionary.entries =
      tables.toDictionary.entries ++ [.term term] := by
    rw [hentries, entries, toDictionary, Tables.addTerm, hvariants]
    simp
  have hnew : tables.toDictionary.entries.find?
      (foldCase ·.text == foldCase (Entry.term term).text) = none := by
    rw [hentries, List.find?_map, Option.map_eq_none_iff, List.find?_eq_none]
    intro other hother
    have hdistinct := List.find?_eq_none.mp hkey other hother
    rwa [h.keys other hother, hterm] at hdistinct
  refine ⟨?_, ?_, update_findIdx? h.byKey hkey, update_findIdx? h.byId hid, ?_⟩
  · exact List.forall_mem_append.mpr ⟨h.keys, List.forall_mem_singleton.mpr hterm⟩
  · have hold : tables.slots.map (tables.addTerm term).record? = _ :=
      h.map_record? (List.prefix_append _ _) (List.prefix_refl _)
    rw [hentries', List.map_append, ← hold, Tables.addTerm, List.map_append]
    simp [record?]
  · rw [hentries']
    have hregistered := update_findIdx? h.registered hnew
    rw [← h.length_slots] at hregistered
    rw [Tables.addTerm, hterm]
    exact hregistered

theorem drop (h : tables.Sound) (reason : Drop) : (tables.drop reason).Sound :=
  ⟨h.keys, h.slots, h.byKey, h.byId, h.registered⟩

/-- A variant with a new case fold is added behind all entries. -/
theorem addVariant (h : tables.Sound) {variant : Variant}
    (hfree : tables.toDictionary.entries.find? (foldCase ·.text == foldCase variant.text) = none) :
    (tables.addVariant variant).Sound := by
  refine ⟨h.keys, ?_, h.byKey, h.byId, ?_⟩
  · have hold : tables.slots.map (tables.addVariant variant).record? = _ :=
      h.map_record? (List.prefix_refl _) (List.prefix_append _ _)
    rw [entries_addVariant, List.map_append, ← hold, Tables.addVariant, List.map_append]
    simp [record?]
  · rw [entries_addVariant]
    have hregistered := update_findIdx? h.registered (a := .variant variant) hfree
    rw [← h.length_slots] at hregistered
    exact hregistered

end Sound

section Terms

structure OnlyTerms (tables : Tables) : Prop extends tables.Sound where
  variants_eq : tables.variants = []
  dropped_eq : tables.dropped = 0
  drops_eq : tables.drops = []

theorem accept_eq_map (h : tables.Sound) (raw : Definition) :
    tables.accept raw =
      (Dictionary.accept tables.terms tables.terms.length raw).map tables.addTerm := by
  have hkey := h.termByKey?_eq
  have hid := h.termById?_eq
  unfold accept Dictionary.accept required
  cases raw.term.bind nonBlank? with
  | none => rfl
  | some name =>
    cases raw.definition.bind nonBlank? with
    | none => rfl
    | some definition =>
      simp only [bind, Except.bind, hkey, hid, termOf]
      unfold Dictionary.termByKey? Dictionary.termById? toDictionary
      cases tables.terms.find? (·.key == foldCase name) with
      | some existing => rfl
      | none =>
        cases tables.terms.find? (·.id == identifierOf raw.id name (foldCase name)) <;> rfl

theorem OnlyTerms.accept (h : tables.OnlyTerms) {raw : Definition} {term : Term}
    (hterm : Dictionary.accept tables.terms tables.terms.length raw = .ok term) :
    (tables.addTerm term).OnlyTerms := by
  obtain ⟨hgives, hkey, hid⟩ := accept_eq_ok_iff.mp hterm
  exact ⟨h.addTerm h.variants_eq (key_of_gives hgives) (find?_eq_none_iff.mpr hkey)
    (find?_eq_none_iff.mpr hid), h.variants_eq, h.dropped_eq, h.drops_eq⟩

theorem foldlM_accept (h : tables.OnlyTerms) (definitions : List Definition) :
    (definitions.foldlM Tables.accept tables).map Tables.terms =
        Dictionary.acceptAll tables.terms definitions ∧
      ∀ tables', definitions.foldlM Tables.accept tables = .ok tables' → tables'.OnlyTerms := by
  induction definitions generalizing tables with
  | nil => exact ⟨rfl, fun _ he => Except.ok.inj he ▸ h⟩
  | cons raw rest ih =>
    rw [List.foldlM_cons, Dictionary.acceptAll, accept_eq_map h.toSound]
    cases hterm : Dictionary.accept tables.terms tables.terms.length raw with
    | error fault =>
      refine ⟨rfl, fun tables' he => ?_⟩
      cases he
    | ok term => exact ih (h.accept hterm)

end Terms

section Submissions
variable {registry : Registry}

theorem lookup_eq_find? {entries : List Entry} (h : registry.Holds entries) (x : Text) :
    registry.lookup x = entries.find? (foldCase ·.text == x) := by
  cases hfind : entries.find? (foldCase ·.text == x) with
  | none =>
    rw [h.lookup_eq_none_iff]
    intro entry hentry
    simpa using List.find?_eq_none.mp hfind entry hentry
  | some entry =>
    exact (h x entry).mpr ⟨List.mem_of_find?_eq_some hfind, by simpa using List.find?_some hfind⟩

def apply (tables : Tables) : Except Drop Variant → Tables
  | .ok variant => tables.addVariant variant
  | .error reason => tables.drop reason

theorem register_eq (h : tables.Sound) (hregistry : registry.Holds tables.toDictionary.entries)
    (linked : Linked) : tables.register linked = tables.apply (linked.variant registry) := by
  unfold register Linked.variant
  cases linked.text.trim with
  | nil => rfl
  | cons c rest =>
    simp only [h.existing?_eq, lookup_eq_find? hregistry]
    cases tables.toDictionary.entries.find? (foldCase ·.text == foldCase (c :: rest)) with
    | none => rfl
    | some existing =>
      dsimp only
      split <;> rfl

theorem submit_eq (h : tables.Sound) (hregistry : registry.Holds tables.toDictionary.entries)
    (submission : Submission) : tables.submit submission =
      tables.apply ((submission.link tables.terms).bind (Linked.variant registry)) := by
  cases submission with
  | inflected canonical text generated => exact register_eq h hregistry _
  | declared kind variant =>
    have hid : tables.termById? = fun id => tables.terms.find? (·.id == id) := funext h.termById?_eq
    rw [submit, Submission.link, hid]
    cases variant.text with
    | none => rfl
    | some text =>
      dsimp only
      cases variant.refersTo.bind fun id => tables.terms.find? (·.id == id.trim) with
      | none => rfl
      | some term => exact register_eq h hregistry _

private theorem lookup_of_link {terms : List Term} {submission : Submission} {variant : Variant}
    (h : (submission.link terms).bind (Linked.variant registry) = .ok variant) :
    registry.lookup (foldCase variant.text) = none := by
  cases hlink : submission.link terms with
  | error reason =>
    rw [hlink] at h
    cases h
  | ok linked =>
    rw [hlink] at h
    exact (Linked.variant_eq_ok_iff.mp h).2

theorem foldl_submit (h : tables.Sound) (hregistry : registry.Holds tables.toDictionary.entries)
    (submitted : List Submission) :
    (submitted.foldl submit tables).Sound ∧
      (submitted.foldl submit tables).toDictionary =
        { terms := tables.terms
          variants := tables.variants ++ (registerAll tables.terms registry submitted).1
          dropped := tables.dropped + (registerAll tables.terms registry submitted).2.1
          drops := tables.drops ++ (registerAll tables.terms registry submitted).2.2 } := by
  induction submitted generalizing tables registry with
  | nil => exact ⟨h, by simp [registerAll, toDictionary]⟩
  | cons submission rest ih =>
    rw [List.foldl_cons, submit_eq h hregistry, registerAll]
    cases hstep : (submission.link tables.terms).bind (Linked.variant registry) with
    | error reason =>
      obtain ⟨hsound, hdictionary⟩ := ih (h.drop reason) hregistry
      refine ⟨hsound, hdictionary.trans ?_⟩
      simp [Tables.drop, Nat.add_comm, Nat.add_assoc]
    | ok variant =>
      have hfree := lookup_of_link hstep
      have hnext := hregistry.cons (.variant variant) (hregistry.lookup_eq_none_iff.mp hfree)
      rw [lookup_eq_find? hregistry] at hfree
      rw [← entries_addVariant] at hnext
      obtain ⟨hsound, hdictionary⟩ := ih (h.addVariant hfree) hnext
      refine ⟨hsound, hdictionary.trans ?_⟩
      simp [addVariant, Entry.text]

end Submissions

/-- Building the tables is building the dictionary: it fails alike, and what it gives is found in
the tables as it is by a search. -/
theorem toDictionary_build (source : Source) (rules : InflectionRules) :
    (build source rules).map toDictionary = Dictionary.build source rules ∧
    ∀ tables, build source rules = .ok tables →
      (∀ ordinal, tables.entry? ordinal = tables.toDictionary.entry? ordinal) ∧
      (∀ key, tables.termByKey? key = tables.toDictionary.termByKey? key) ∧
      (∀ id, tables.termById? id = tables.toDictionary.termById? id) ∧
      ∀ fold, tables.existing? fold =
        tables.toDictionary.entries.find? (foldCase ·.text == fold) := by
  unfold build Dictionary.build
  cases rules.fault? with
  | some fault => exact ⟨rfl, fun _ he => nomatch he⟩
  | none =>
    obtain ⟨hterms, honly⟩ := foldlM_accept ⟨Sound.empty, rfl, rfl, rfl⟩ source.definitions
    cases haccept : source.definitions.foldlM accept {} with
    | error fault =>
      rw [haccept] at hterms
      simp only [bind, Except.bind, pure, Except.pure, ← hterms]
      exact ⟨rfl, fun _ he => nomatch he⟩
    | ok tables =>
      have h := honly tables haccept
      rw [haccept] at hterms
      have hkeys := (gives_of_acceptAll hterms.symm .nil .nil).2.1
      have hregistry := holds_terms hkeys h.keys
      rw [← entries_of_no_variants h.variants_eq] at hregistry
      obtain ⟨hsound, hdictionary⟩ := foldl_submit h.toSound hregistry
        (submissions source rules tables.terms)
      simp only [bind, Except.bind, pure, Except.pure, ← hterms]
      refine ⟨congrArg Except.ok ?_, ?_⟩
      · rw [hdictionary, h.variants_eq, h.dropped_eq, h.drops_eq, List.nil_append, List.nil_append,
          Nat.zero_add]
      · rintro _ ⟨⟩
        exact ⟨hsound.entry?_eq, hsound.termByKey?_eq, hsound.termById?_eq, hsound.existing?_eq⟩

end Tables
end Gloss.Dictionary
