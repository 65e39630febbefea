import Gloss.Proofs.Dictionary.Identifiers
import Gloss.Proofs.Dictionary.Ledger
import Gloss.Proofs.Text.Trimming

/-! What the lookups of a dictionary find. A term is found under its key and under its identifier,
and every entry leads to a term: a canonical entry to itself, a variant to the term of the first
submission that asked for its case fold. -/
namespace Gloss
open Text

namespace Identifier

theorem isWhite_of_isKept {c : Char} (h : isKept c = true) : isWhite c = false := by
  have hcode := toNat_of_isKept h
  have hranges : ∀ range ∈ whiteRanges, range.2 < '0'.toNat ∨ 'z'.toNat < range.1 := by decide
  rw [Bool.eq_false_iff, ne_eq, isWhite_iff]
  rintro ⟨range, hrange, hbounds⟩
  have hrange := hranges range hrange
  omega

theorem isWhite_of_mem_ofTerm {term : Text} {c : Char} (h : c ∈ ofTerm term) :
    isWhite c = false := by
  have hword {word : Text} (hword : IsWord word) (hc : c ∈ word) : isWhite c = false :=
    isWhite_of_isKept (hword.kept c hc)
  rcases ofTerm_eq_nil_or_isNormal term with hempty | ⟨first, later, hfirst, hlater, he⟩
  · rw [hempty] at h
    cases h
  · rw [he, List.mem_append, List.mem_flatMap] at h
    rcases h with h | ⟨word, hmem, h⟩
    · exact hword hfirst h
    · rcases List.mem_cons.mp h with rfl | h
      · rfl
      · exact hword (hlater word hmem) h

end Identifier

namespace Dictionary

/-- Terms that their keys and their identifiers tell apart. -/
structure TermsSound (terms : List Term) : Prop where
  keys_nodup : (terms.map Term.key).Nodup
  key_eq : ∀ term ∈ terms, term.key = foldCase term.name
  ids_nodup : (terms.map Term.id).Nodup
  id_ne_nil : ∀ term ∈ terms, term.id ≠ []
  trim_id : ∀ term ∈ terms, term.id.trim = term.id

/-- The term that a submission stands for: a declared variant refers to its identifier, a declared
inflection stands in its definition, and a generated form comes from its name. -/
inductive Submission.StandsFor (source : Source) (rules : InflectionRules) (terms : List Term) :
    Submission → Term → Prop where
  | declared {kind : VariantKind} {variant : DeclaredVariant} {term : Term} (hterm : term ∈ terms)
      (hrefers : variant.refersTo.map trim = some term.id) :
      StandsFor source rules terms (.declared kind variant) term
  | listed {raw : Definition} {term : Term} {text : Text}
      (hdefines : (raw, term) ∈ source.definitions.zip terms) (htext : text ∈ raw.inflections) :
      StandsFor source rules terms (.inflected term.key text false) term
  | generated {term : Term} {text : Text} (hterm : term ∈ terms)
      (htext : text ∈ rules.forms term.name) :
      StandsFor source rules terms (.inflected term.key text true) term

/-- The submission asks for the variant, and none before it asks for the same case fold. -/
def Submission.FirstFor (terms : List Term) (submitted : List Submission) (variant : Variant)
    (submission : Submission) : Prop :=
  (∃ linked, submission.Asks terms linked ∧ linked.toVariant = variant) ∧
    ∃ earlier later, submitted = earlier ++ submission :: later ∧
      ∀ other ∈ earlier, ∀ linked, other.Asks terms linked →
        foldCase linked.toVariant.text ≠ foldCase variant.text

section Identifiers

/-- An identifier of its own is trimmed when it is read; one that is derived has no white space, and
the case fold of a trimmed term is trimmed. -/
theorem identifierOf_sound {name : Text} (hname : name ≠ []) (htrimmed : Trimmed name)
    (declared : Option Text) :
    identifierOf declared name (foldCase name) ≠ [] ∧
      Trimmed (identifierOf declared name (foldCase name)) := by
  unfold identifierOf
  split
  · next id hid =>
    obtain ⟨written, -, hid⟩ := Option.bind_eq_some_iff.mp hid
    obtain ⟨rfl, hne⟩ := nonBlank?_eq_some_iff.mp hid
    exact ⟨hne, trimmed_trim written⟩
  · split
    · exact ⟨by simpa using hname, htrimmed.foldCase⟩
    · next hderived =>
      exact ⟨hderived, trimmed_of_forall fun _ => Identifier.isWhite_of_mem_ofTerm⟩

theorem Gives.id_sound {raw : Definition} {term : Term} (h : Gives raw term) :
    term.id ≠ [] ∧ Trimmed term.id := by
  obtain ⟨name, definition, hname, -, rfl⟩ := h
  obtain ⟨written, -, hname⟩ := Option.bind_eq_some_iff.mp hname
  obtain ⟨rfl, hne⟩ := nonBlank?_eq_some_iff.mp hname
  exact identifierOf_sound hne (trimmed_trim written) raw.id

end Identifiers

section Lookup
variable {dictionary : Dictionary} (h : TermsSound dictionary.terms) {x : Text} {term : Term}
include h

theorem termByKey?_eq_some_iff :
    dictionary.termByKey? x = some term ↔ term ∈ dictionary.terms ∧ term.key = x :=
  find?_eq_some_iff_of_nodup Term.key h.keys_nodup

theorem term?_eq_some_iff :
    dictionary.term? x = some term ↔ term ∈ dictionary.terms ∧ term.key = foldCase x :=
  termByKey?_eq_some_iff h

theorem termById?_eq_some_iff :
    dictionary.termById? x = some term ↔ term ∈ dictionary.terms ∧ term.id = x :=
  find?_eq_some_iff_of_nodup Term.id h.ids_nodup

end Lookup

section Origin
variable {source : Source} {rules : InflectionRules} {terms : List Term}

theorem Submission.Asks.unique (hids : (terms.map Term.id).Nodup) {submission : Submission}
    {linked linked' : Linked} (h : submission.Asks terms linked)
    (h' : submission.Asks terms linked') : linked = linked' := by
  have hlink := (link_eq_ok_iff hids).mpr h
  rw [(link_eq_ok_iff hids).mpr h'] at hlink
  exact (Except.ok.inj hlink).symm

theorem Submission.Asks.exists_standsFor {submission : Submission} {linked : Linked}
    (h : submission.Asks terms linked) (hmem : submission ∈ submissions source rules terms) :
    ∃ term ∈ terms, submission.StandsFor source rules terms term ∧
      linked.canonical = term.key := by
  cases h with
  | declared _ hterm hrefers => exact ⟨_, hterm, .declared hterm hrefers, rfl⟩
  | inflected =>
    simp only [submissions, List.mem_append, List.mem_map, List.mem_flatMap, reduceCtorEq,
      and_false, exists_false, false_or] at hmem
    rcases hmem with ⟨⟨raw, term⟩, hpair, text, htext, he⟩ | ⟨term, hterm, text, htext, he⟩
    · cases he
      exact ⟨term, (List.of_mem_zip hpair).2, .listed hpair htext, rfl⟩
    · cases he
      exact ⟨term, hterm, .generated hterm htext, rfl⟩

theorem Submission.FirstFor.exists_standsFor {submission : Submission} {variant : Variant}
    (h : Submission.FirstFor terms (submissions source rules terms) variant submission) :
    ∃ term ∈ terms, submission.StandsFor source rules terms term ∧
      variant.canonical = term.key := by
  obtain ⟨⟨linked, hasks, rfl⟩, earlier, later, hsplit, -⟩ := h
  apply hasks.exists_standsFor
  rw [hsplit]
  exact List.mem_append_right _ List.mem_cons_self

/-- A logged submission that asks for a variant asks for a case fold that is taken. -/
theorem Submission.Logged.taken (hids : (terms.map Term.id).Nodup) {before : List Entry}
    {submission : Submission} {event : LogEvent} (h : submission.Logged terms before event)
    {linked : Linked} (hasks : submission.Asks terms linked) (hsound : linked.toVariant.text ≠ []) :
    ∃ entry ∈ before, foldCase entry.text = foldCase linked.toVariant.text := by
  cases h with
  | missingText htext =>
    cases hasks with
    | declared hsome _ _ => cases htext.symm.trans hsome
  | unresolved _ hrefers =>
    cases hasks with
    | declared _ hterm hreferent => exact absurd hreferent (hrefers _ hterm)
  | blank hasked hblank =>
    cases hasked.unique hids hasks
    exact absurd hblank hsound
  | alreadyRegistered hasked _ hexisting hfold _ _ =>
    cases hasked.unique hids hasks
    exact ⟨_, hexisting, hfold⟩
  | collision hasked _ hexisting hfold _ =>
    cases hasked.unique hids hasks
    exact ⟨_, hexisting, hfold⟩

/-- Every variant of a ledger goes back to the first submission that asked for its case fold. -/
theorem Ledger.exists_first (hids : (terms.map Term.id).Nodup) {before : List Entry}
    {submitted : List Submission} {variants : List Variant} {log : List LogEvent}
    (h : Ledger terms before submitted variants log) {variant : Variant}
    (hvariant : variant ∈ variants) :
    (variant.text ≠ [] ∧ ∀ entry ∈ before, foldCase entry.text ≠ foldCase variant.text) ∧
      ∃ submission, Submission.FirstFor terms submitted variant submission := by
  induction h with
  | nil => cases hvariant
  | @register before submission rest first variants log hfirst _ ih =>
    rcases List.mem_cons.mp hvariant with rfl | hvariant
    · exact ⟨⟨hfirst.sound, hfirst.free⟩, submission, hfirst.asks, [], rest, rfl, by simp⟩
    · obtain ⟨⟨hsound, hnew⟩, found, hasked, earlier, later, rfl, hearlier⟩ := ih hvariant
      refine ⟨⟨hsound, fun entry hentry => hnew entry (List.mem_append_left _ hentry)⟩, found,
        hasked, submission :: earlier, later, rfl, List.forall_mem_cons.mpr ⟨?_, hearlier⟩⟩
      intro linked hasks
      obtain ⟨linked', hasks', rfl⟩ := hfirst.asks
      cases hasks.unique hids hasks'
      exact hnew _ (List.mem_append_right _ List.mem_cons_self)
  | @drop before submission rest event variants log hfirst _ ih =>
    obtain ⟨⟨hsound, hnew⟩, found, hasked, earlier, later, rfl, hearlier⟩ := ih hvariant
    refine ⟨⟨hsound, hnew⟩, found, hasked, submission :: earlier, later, rfl,
      List.forall_mem_cons.mpr ⟨?_, hearlier⟩⟩
    intro linked hasks hfold
    have hasksSound : linked.toVariant.text ≠ [] := by
      intro hnil
      rw [hnil, foldCase_nil, eq_comm, foldCase_eq_nil_iff] at hfold
      exact hsound hfold
    obtain ⟨entry, hentry, htaken⟩ := hfirst.taken hids hasks hasksSound
    exact hnew entry hentry (htaken.trans hfold)

end Origin

section Build
variable {source : Source} {rules : InflectionRules} {dictionary : Dictionary}

theorem termsSound_of_build (h : build source rules = .ok dictionary) :
    TermsSound dictionary.terms := by
  have hids (term : Term) (hterm : term ∈ dictionary.terms) : term.id ≠ [] ∧ Trimmed term.id := by
    obtain ⟨raw, -, hgives⟩ := exists_definition (gives_of_build h) hterm
    exact hgives.id_sound
  exact
    { keys_nodup := keys_nodup_of_build h
      key_eq := fun _ hterm => key_of_build h hterm
      ids_nodup := ids_nodup_of_build h
      id_ne_nil := fun term hterm => (hids term hterm).1
      trim_id := fun term hterm => (hids term hterm).2.trim_eq }

theorem isSome_entry_iff (dictionary : Dictionary) (n : Nat) :
    (dictionary.entry? n).isSome = true ↔
      n < dictionary.stats.terms + dictionary.stats.variants := by
  simp [Dictionary.entry?, entries, stats]

theorem canonicalOf?_eq_some_iff (h : build source rules = .ok dictionary) {n : Nat}
    {entry : Entry} (hentry : dictionary.entry? n = some entry) {term : Term} :
    dictionary.canonicalOf? n = some term ↔
      term ∈ dictionary.terms ∧ term.key = entry.canonicalKey := by
  rw [canonicalOf?, hentry, Option.bind_some, termByKey?_eq_some_iff (termsSound_of_build h)]

theorem isSome_canonicalOf? (h : build source rules = .ok dictionary) (n : Nat) :
    (dictionary.canonicalOf? n).isSome = (dictionary.entry? n).isSome := by
  cases hentry : dictionary.entry? n with
  | none =>
    rw [canonicalOf?, hentry]
    rfl
  | some entry =>
    obtain ⟨term, hterm, hkey⟩ :=
      List.mem_map.mp (canonicalKey_mem_of_build h (List.mem_of_getElem? hentry))
    rw [(canonicalOf?_eq_some_iff h hentry).mpr ⟨hterm, hkey⟩]
    rfl

theorem term_mem_of_ordinal {n : Nat} {term : Term} (h : dictionary.entry? n = some (.term term)) :
    term ∈ dictionary.terms := by
  have hmem := List.mem_of_getElem? h
  simpa [entries] using hmem

theorem variant_mem_of_ordinal {n : Nat} {variant : Variant}
    (h : dictionary.entry? n = some (.variant variant)) : variant ∈ dictionary.variants := by
  have hmem := List.mem_of_getElem? h
  simpa [entries] using hmem

/-- Lookups in a dictionary that was built are exact, and every entry leads to the term that its
declaration meant. -/
theorem build_lookups_exact (h : build source rules = .ok dictionary) :
    TermsSound dictionary.terms ∧
    (∀ x term, dictionary.term? x = some term ↔
      term ∈ dictionary.terms ∧ term.key = foldCase x) ∧
    (∀ x term, dictionary.termByKey? x = some term ↔ term ∈ dictionary.terms ∧ term.key = x) ∧
    (∀ x term, dictionary.termById? x = some term ↔ term ∈ dictionary.terms ∧ term.id = x) ∧
    (∀ n, (dictionary.entry? n).isSome = true ↔
      n < dictionary.stats.terms + dictionary.stats.variants) ∧
    (∀ n, (dictionary.canonicalOf? n).isSome = (dictionary.entry? n).isSome) ∧
    (∀ n term, dictionary.entry? n = some (.term term) → dictionary.canonicalOf? n = some term) ∧
    ∀ n variant, dictionary.entry? n = some (.variant variant) →
      ∃ submission term,
        Submission.FirstFor dictionary.terms (submissions source rules dictionary.terms) variant
          submission ∧
        submission.StandsFor source rules dictionary.terms term ∧
        dictionary.canonicalOf? n = some term := by
  have hsound := termsSound_of_build h
  refine ⟨hsound, fun _ _ => term?_eq_some_iff hsound, fun _ _ => termByKey?_eq_some_iff hsound,
    fun _ _ => termById?_eq_some_iff hsound, isSome_entry_iff dictionary, isSome_canonicalOf? h,
    ?_, ?_⟩
  · intro n term hentry
    exact (canonicalOf?_eq_some_iff h hentry).mpr ⟨term_mem_of_ordinal hentry, rfl⟩
  · intro n variant hentry
    have hledger := (ledger_of_build h).mpr ⟨rfl, rfl⟩
    obtain ⟨-, submission, hfirst⟩ :=
      hledger.exists_first hsound.ids_nodup (variant_mem_of_ordinal hentry)
    obtain ⟨term, hterm, hstands, hcanonical⟩ := hfirst.exists_standsFor
    exact ⟨submission, term, hfirst, hstands,
      (canonicalOf?_eq_some_iff h hentry).mpr ⟨hterm, hcanonical.symm⟩⟩

/-- A source whose three identifiers are declared, derived from a term, and the fallback for a term
without a letter to keep. -/
def lookupSource : Source where
  definitions :=
    [{ id := some " K-1 ".toList, term := some "Kat".toList, definition := some "dier".toList,
       inflections := ["katje".toList] },
     { term := some " Data lek ".toList, definition := some "verlies".toList },
     { term := some "Ω".toList, definition := some "letter".toList }]
  alternativeSpellings := [{ text := some "datalek".toList, refersTo := some " data_lek".toList }]
  alternativeTerms := [{ text := some " Omega".toList, refersTo := some "ω".toList },
    { text := some "OMEGA".toList, refersTo := some "K-1".toList }]

theorem build_lookups_exact_ids : ∃ dictionary,
    build lookupSource { suffixes := ["s".toList] } = .ok dictionary ∧
    TermsSound dictionary.terms ∧
    dictionary.terms.map Term.id = ["K-1".toList, "data_lek".toList, "ω".toList] ∧
    (∀ x term, dictionary.termById? x = some term ↔ term ∈ dictionary.terms ∧ term.id = x) ∧
    dictionary.entry? 4 = some (.variant ⟨"Omega".toList, "ω".toList, .alternativeTerm⟩) ∧
    ∃ submission term,
      Submission.FirstFor dictionary.terms
        (submissions lookupSource { suffixes := ["s".toList] } dictionary.terms)
        ⟨"Omega".toList, "ω".toList, .alternativeTerm⟩ submission ∧
      submission.StandsFor lookupSource { suffixes := ["s".toList] } dictionary.terms term ∧
      dictionary.canonicalOf? 4 = some term := by
  obtain ⟨dictionary, h⟩ : ∃ dictionary,
      build lookupSource { suffixes := ["s".toList] } = .ok dictionary := ⟨_, rfl⟩
  obtain ⟨hsound, -, -, hids, -, -, -, hvariants⟩ := build_lookups_exact h
  have hentry :
      dictionary.entry? 4 = some (.variant ⟨"Omega".toList, "ω".toList, .alternativeTerm⟩) := by
    cases h
    decide
  refine ⟨dictionary, h, hsound, ?_, hids, hentry, hvariants _ _ hentry⟩
  cases h
  decide

end Build
end Dictionary
end Gloss
