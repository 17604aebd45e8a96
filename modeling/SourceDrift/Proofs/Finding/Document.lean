/-
Documents of findings, read back.

Reading sorts the keys of a document into fields and extras, writing puts the fields
first; so the extras of what was read hold no field's key, and a document that is
written has each key once. That is `WellFormed`, and it is all that is needed: what is
written of a well-formed mapping or element is read back, with `null` for every number
that a document cannot hold.

A finding has one way out of this. Its sync state is not written while it is unknown, and
an extra under the state's second name, which was an extra only because the first name was
there too, then stands where the state would be looked for. Such a key is hidden while the
finding is in memory and comes forward when it is stored.
-/
import Mathlib.Tactic.Tauto
import SourceDrift.Proofs.Json.Members
import SourceDrift.Proofs.Validation

set_option autoImplicit false

namespace SourceDrift

open Checked

/-! ## Reading, field by field -/

/-- What reading a mapping takes from the members of a document. -/
structure SourceMapping.ReadFrom (members : List Json.Member) (m : SourceMapping) : Prop where
  start : member integer "start" members = .ok m.start?
  length : member integer "length" members = .ok m.length?
  absolute : member text "filename_absolute" members = .ok m.absolute?
  relative : member text "filename_relative" members = .ok m.relative?
  lines : member (list integer) "lines" members = .ok m.lines?
  startColumn : member integer "starting_column" members = .ok m.startColumn?
  endColumn : member integer "ending_column" members = .ok m.endColumn?
  digest : member (nullable text) (digestKey members) members = .ok m.digest?
  extras : m.extras = Json.without (fieldKeys members) members

theorem SourceMapping.ofJson_eq_ok {v : Json} {m : SourceMapping} :
    ofJson v = .ok m ↔ ∃ members, v = .obj members ∧ ReadFrom members m := by
  constructor
  · intro h
    cases v with
    | obj members =>
      obtain ⟨⟨_, _, _, _, _, _, _, _⟩, hall, rfl⟩ := map_eq_ok.1 h
      simp only [both_eq_ok] at hall
      obtain ⟨hstart, hlength, habsolute, hrelative, hlines, hfrom, hto, hdigest⟩ := hall
      exact ⟨members, rfl, hstart, hlength, habsolute, hrelative, hlines, hfrom, hto, hdigest, rfl⟩
    | null | bool _ | int _ | float _ | str _ | arr _ => cases h
  · rintro ⟨members, rfl, h⟩
    refine map_eq_ok.2 ⟨(m.start?, m.length?, m.absolute?, m.relative?, m.lines?, m.startColumn?,
      m.endColumn?, m.digest?), ?_, ?_⟩
    · simp only [both_eq_ok]
      exact ⟨h.start, h.length, h.absolute, h.relative, h.lines, h.startColumn,
        h.endColumn, h.digest⟩
    · rw [← h.extras]

/-- What reading an element takes from the members of a document. -/
structure Element.ReadFrom (members : List Json.Member) (e : Element) : Prop where
  name : member text "name" members = .ok e.name?
  kind : member text (kindKey members) members = .ok e.kind?
  mapping : member (nullable SourceMapping.ofJson) "source_mapping" members = .ok e.mapping?
  details : member (nullable dictionary) "type_specific_fields" members = .ok e.details?
  extras : e.extras = Json.without (fieldKeys members) members

theorem Element.ofJson_eq_ok {v : Json} {e : Element} :
    ofJson v = .ok e ↔ ∃ members, v = .obj members ∧ ReadFrom members e := by
  constructor
  · intro h
    cases v with
    | obj members =>
      obtain ⟨⟨_, _, _, _⟩, hall, rfl⟩ := map_eq_ok.1 h
      simp only [both_eq_ok] at hall
      obtain ⟨hname, hkind, hmapping, hdetails⟩ := hall
      exact ⟨members, rfl, hname, hkind, hmapping, hdetails, rfl⟩
    | null | bool _ | int _ | float _ | str _ | arr _ => cases h
  · rintro ⟨members, rfl, h⟩
    refine map_eq_ok.2 ⟨(e.name?, e.kind?, e.mapping?, e.details?), ?_, ?_⟩
    · simp only [both_eq_ok]
      exact ⟨h.name, h.kind, h.mapping, h.details⟩
    · rw [← h.extras]

/-- What reading a finding takes from the members of a document. -/
structure Finding.ReadFrom (members : List Json.Member) (f : Finding) : Prop where
  check : member text "check" members = .ok f.check?
  confidence : member text "confidence" members = .ok f.confidence?
  impact : member text "impact" members = .ok f.impact?
  description : member text "description" members = .ok f.description?
  elements : member (list Element.ofJson) "elements" members = .ok f.elements?
  sync : member SyncState.ofJson (syncKey members) members = .ok f.sync?
  extras : f.extras = Json.without (fieldKeys members) members

theorem Finding.ofJson_eq_ok {v : Json} {f : Finding} :
    ofJson v = .ok f ↔ ∃ members, v = .obj members ∧ ReadFrom members f := by
  constructor
  · intro h
    cases v with
    | obj members =>
      obtain ⟨⟨_, _, _, _, _, _⟩, hall, rfl⟩ := map_eq_ok.1 h
      simp only [both_eq_ok] at hall
      obtain ⟨hcheck, hconfidence, himpact, hdescription, helements, hsync⟩ := hall
      exact ⟨members, rfl, hcheck, hconfidence, himpact, hdescription, helements, hsync, rfl⟩
    | null | bool _ | int _ | float _ | str _ | arr _ => cases h
  · rintro ⟨members, rfl, h⟩
    refine map_eq_ok.2 ⟨(f.check?, f.confidence?, f.impact?, f.description?, f.elements?, f.sync?),
      ?_, ?_⟩
    · simp only [both_eq_ok]
      exact ⟨h.check, h.confidence, h.impact, h.description, h.elements, h.sync⟩
    · rw [← h.extras]

/-! ## What is well-formed -/

/-- The document names of a mapping's fields. -/
def SourceMapping.names : List String :=
  ["start", "length", "filename_absolute", "filename_relative", "lines", "starting_column",
    "ending_column", "_ext_source_hash"]

/-- Whether a mapping is one that reading could answer, up to its digest: no extra has a
field's name, nor the digest's second name while there is no digest. -/
structure SourceMapping.WellFormed (m : SourceMapping) : Prop where
  names : ∀ key ∈ names, Json.lookup key m.extras = none
  secondName : m.digest? = none → Json.lookup "source_hash" m.extras = none
  unique : (Json.obj m.extras).hasUniqueKeys = true

/-- The document names of an element's fields. -/
def Element.names : List String := ["name", "type", "source_mapping", "type_specific_fields"]

/-- Whether an element is one that reading could answer, up to the digest. -/
structure Element.WellFormed (e : Element) : Prop where
  mapping : ∀ m, e.mapping? = some (some m) → m.WellFormed
  details : ∀ details, e.details? = some (some details) → (Json.obj details).hasUniqueKeys = true
  names : ∀ key ∈ names, Json.lookup key e.extras = none
  secondName : e.kind? = none → Json.lookup "element_type" e.extras = none
  unique : (Json.obj e.extras).hasUniqueKeys = true

/-- The document names of a finding's fields. -/
def Finding.names : List String :=
  ["check", "confidence", "impact", "description", "elements", "_ext_in_sync"]

/-- Whether a finding is one that reading could answer, up to its digests and its sync
state. -/
structure Finding.WellFormed (f : Finding) : Prop where
  elements : ∀ es, f.elements? = some es → ∀ e ∈ es, e.WellFormed
  names : ∀ key ∈ names, Json.lookup key f.extras = none
  unique : (Json.obj f.extras).hasUniqueKeys = true

/-! ### Reading answers nothing else -/

namespace Json

theorem hasUniqueKeys_without {members : List Member} (keys : List String)
    (hunique : (Json.obj members).hasUniqueKeys = true) :
    (Json.obj (without keys members)).hasUniqueKeys = true := by
  rw [hasUniqueKeys, Bool.and_eq_true, membersHaveUniqueKeys_iff, decide_eq_true_iff] at hunique ⊢
  have hsub : (without keys members).Sublist members := List.filter_sublist
  exact ⟨hunique.1.sublist (hsub.map _), fun m hm => hunique.2 m (hsub.subset hm)⟩

/-- A field's document name is no key of what is left when the fields are taken out. -/
theorem lookup_without_keyOf {members : List Member} {first : String} (second : String)
    {keys : List String} (hkeys : keyOf members first second ∈ keys) :
    lookup first (without keys members) = none := by
  rw [lookup_without]
  cases hfirst : lookup first members with
  | none => exact ite_self none
  | some v =>
    rw [keyOf, hfirst] at hkeys
    exact if_pos hkeys

theorem lookup_keyOf_eq_none {members : List Member} {first second : String}
    (h : lookup (keyOf members first second) members = none) :
    lookup first members = none ∧ lookup second members = none := by
  unfold keyOf at h
  cases hfirst : lookup first members with
  | none =>
    rw [hfirst] at h
    exact ⟨rfl, h⟩
  | some v =>
    rw [hfirst, Option.isSome_some, if_pos rfl, hfirst] at h
    cases h

end Json

theorem SourceMapping.wellFormed_of_ofJson {v : Json} {m : SourceMapping} (h : ofJson v = .ok m)
    (hv : v.hasUniqueKeys = true) : m.WellFormed := by
  obtain ⟨members, rfl, hread⟩ := ofJson_eq_ok.1 h
  refine ⟨fun key hkey => ?_, fun hdigest => ?_, ?_⟩
  · rw [hread.extras]
    by_cases hfirst : key = "_ext_source_hash"
    · rw [hfirst]
      exact Json.lookup_without_keyOf "source_hash" (by simp [fieldKeys, digestKey])
    · rw [Json.lookup_without, if_pos]
      simp only [names, fieldKeys, List.mem_cons, List.not_mem_nil, or_false, hfirst] at hkey ⊢
      tauto
  · have hnone := (Json.lookup_keyOf_eq_none (member_eq_none (hdigest ▸ hread.digest))).2
    rw [hread.extras, Json.lookup_without, hnone, ite_self]
  · rw [hread.extras]
    exact Json.hasUniqueKeys_without _ hv

theorem Element.wellFormed_of_ofJson {v : Json} {e : Element} (h : ofJson v = .ok e)
    (hv : v.hasUniqueKeys = true) : e.WellFormed := by
  obtain ⟨members, rfl, hread⟩ := ofJson_eq_ok.1 h
  refine ⟨fun m hm => ?_, fun details hdetails => ?_, fun key hkey => ?_, fun hkind => ?_, ?_⟩
  · obtain ⟨w, hlookup, hw⟩ := member_eq_some (hm ▸ hread.mapping)
    exact SourceMapping.wellFormed_of_ofJson (nullable_eq_some hw)
      (Json.hasUniqueKeys_of_lookup hv hlookup)
  · obtain ⟨w, hlookup, hw⟩ := member_eq_some (hdetails ▸ hread.details)
    rw [dictionary_eq_ok (nullable_eq_some hw)] at hlookup
    exact Json.hasUniqueKeys_of_lookup hv hlookup
  · rw [hread.extras]
    by_cases hfirst : key = "type"
    · rw [hfirst]
      exact Json.lookup_without_keyOf "element_type" (by simp [fieldKeys, kindKey])
    · rw [Json.lookup_without, if_pos]
      simp only [names, fieldKeys, List.mem_cons, List.not_mem_nil, or_false, hfirst] at hkey ⊢
      tauto
  · have hnone := (Json.lookup_keyOf_eq_none (member_eq_none (hkind ▸ hread.kind))).2
    rw [hread.extras, Json.lookup_without, hnone, ite_self]
  · rw [hread.extras]
    exact Json.hasUniqueKeys_without _ hv

/-- **What is read is well-formed.** -/
theorem Finding.wellFormed_of_ofJson {v : Json} {f : Finding} (h : ofJson v = .ok f)
    (hv : v.hasUniqueKeys = true) : f.WellFormed := by
  obtain ⟨members, rfl, hread⟩ := ofJson_eq_ok.1 h
  refine ⟨fun es hes e he => ?_, fun key hkey => ?_, ?_⟩
  · obtain ⟨w, hlookup, hw⟩ := member_eq_some (hes ▸ hread.elements)
    obtain ⟨vs, rfl, hall⟩ := list_eq_ok.1 hw
    have hvs := Json.hasUniqueKeys_of_lookup hv hlookup
    rw [Json.hasUniqueKeys, Json.haveUniqueKeys_iff] at hvs
    obtain ⟨u, hu, heq⟩ := exists_of_mem_forall₂ hall he
    exact Element.wellFormed_of_ofJson heq (hvs u hu)
  · rw [hread.extras]
    by_cases hfirst : key = "_ext_in_sync"
    · rw [hfirst]
      exact Json.lookup_without_keyOf "in_sync" (by simp [fieldKeys, syncKey])
    · rw [Json.lookup_without, if_pos]
      simp only [names, fieldKeys, List.mem_cons, List.not_mem_nil, or_false, hfirst] at hkey ⊢
      tauto
  · rw [hread.extras]
    exact Json.hasUniqueKeys_without _ hv

/-! ## Reading back -/

/-- The mapping with `null` for the numbers that no document holds. -/
def SourceMapping.dropNonFinite (m : SourceMapping) : SourceMapping :=
  { m with extras := Json.dropNonFiniteMembers m.extras }

/-- The element with `null` for the numbers that no document holds. -/
def Element.dropNonFinite (e : Element) : Element :=
  { e with
    mapping? := e.mapping?.map (Option.map SourceMapping.dropNonFinite)
    details? := e.details?.map (Option.map Json.dropNonFiniteMembers)
    extras := Json.dropNonFiniteMembers e.extras }

/-- The state as a document gives it: not at all while it is unknown. -/
def SyncState.given? : SyncState → Option SyncState
  | unknown => none
  | inSync => some inSync
  | outOfSync => some outOfSync

/-- The finding as its document gives it: with `null` for the numbers that no document
holds, and without a state that is unknown. -/
def Finding.stored (f : Finding) : Finding :=
  { f with
    elements? := f.elements?.map (List.map Element.dropNonFinite)
    sync? := f.sync.given?
    extras := Json.dropNonFiniteMembers f.extras }

theorem list_integer (ns : List Int) : list integer (.arr (ns.map .int)) = .ok ns := by
  rw [list, items_eq_ok, List.forall₂_map_left_iff]
  exact List.forall₂_same.2 (fun _ _ => rfl)

theorem nullable_digestJson (digest : Option String) :
    nullable text (SourceMapping.digestJson digest) = .ok digest := by
  cases digest <;> rfl

namespace Json

theorem lookup_dropNonFiniteMembers_eq_none {key : String} {members : List Member}
    (h : lookup key members = none) : lookup key (dropNonFiniteMembers members) = none := by
  rw [lookup_dropNonFiniteMembers, h, Option.map_none]

/-- The extras are what is left of a document when the fields are taken out. -/
theorem without_dropNonFiniteMembers {keys : List String} {extras : List Member}
    (hkeys : ∀ key ∈ keys, lookup key extras = none) :
    without keys (dropNonFiniteMembers extras) = dropNonFiniteMembers extras :=
  without_eq_self (fun key hkey => lookup_dropNonFiniteMembers_eq_none (hkeys key hkey))

end Json

namespace Json

variable {α : Type} {members : List Member} {first second : String} {o : Option α}
  {toJson : α → Json}

/-- A field with two names that was written is found again under the first; one that was
not is found under neither. -/
theorem lookup_keyOf_written (hfirst : lookup first members = o.map toJson)
    (hsecond : o = none → lookup second members = none) :
    lookup (keyOf members first second) members = o.map toJson := by
  cases o with
  | none =>
    rw [keyOf, hfirst]
    exact hsecond rfl
  | some a =>
    rw [keyOf, hfirst]
    exact hfirst

/-- The names of such a field are no keys of the extras. -/
theorem lookup_keyOf_extras {extras : List Member} (hfirst : lookup first members = o.map toJson)
    (hextras : lookup first extras = none) (hsecond : o = none → lookup second extras = none) :
    lookup (keyOf members first second) extras = none := by
  cases o with
  | none =>
    rw [keyOf, hfirst]
    exact hsecond rfl
  | some a =>
    rw [keyOf, hfirst]
    exact hextras

/-- Nothing of such a field is left when the field is taken out. -/
theorem without_given_keyOf (second : String) {keys : List String}
    (hfirst : lookup first members = o.map toJson)
    (hkeys : keyOf members first second ∈ keys) : without keys (given first toJson o) = [] := by
  cases o with
  | none => rfl
  | some a =>
    rw [keyOf, hfirst] at hkeys
    exact without_given_mem hkeys toJson (some a)

end Json

theorem SourceMapping.WellFormed.lookup_digest_members {m : SourceMapping} (hm : m.WellFormed) :
    Json.lookup "_ext_source_hash" m.members = m.digest?.map digestJson := by
  have hextras := Json.lookup_dropNonFiniteMembers_eq_none (hm.names "_ext_source_hash" (by decide))
  simp [members, Json.lookup_append, Json.lookup_given, hextras]

theorem SourceMapping.WellFormed.lookup_extras_of_mem_fieldKeys {m : SourceMapping}
    (hm : m.WellFormed) : ∀ key ∈ fieldKeys m.members, Json.lookup key m.extras = none := by
  have hdigestKey : Json.lookup (digestKey m.members) m.extras = none :=
    Json.lookup_keyOf_extras hm.lookup_digest_members (hm.names _ (by decide)) hm.secondName
  have hnames := hm.names
  simp only [SourceMapping.names, List.forall_mem_cons] at hnames
  simp only [fieldKeys, List.forall_mem_cons]
  tauto

/-- What is left of a written mapping when its fields are taken out again: its extras. -/
theorem SourceMapping.WellFormed.without_fieldKeys_members {m : SourceMapping}
    (hm : m.WellFormed) :
    Json.without (fieldKeys m.members) m.members = Json.dropNonFiniteMembers m.extras := by
  have hdigest : Json.without (fieldKeys m.members)
      (Json.given "_ext_source_hash" digestJson m.digest?) = [] :=
    Json.without_given_keyOf "source_hash" hm.lookup_digest_members (by simp [fieldKeys, digestKey])
  have hkeys : ∀ key ∈ ["start", "length", "filename_absolute", "filename_relative", "lines",
      "starting_column", "ending_column"], key ∈ fieldKeys m.members := by
    simp [fieldKeys]
  have hextras := hm.lookup_extras_of_mem_fieldKeys
  -- the keys mention the members, which are about to be taken apart
  generalize fieldKeys m.members = keys at hdigest hextras hkeys
  simp only [List.forall_mem_cons] at hkeys
  obtain ⟨hk₁, hk₂, hk₃, hk₄, hk₅, hk₆, hk₇, -⟩ := hkeys
  simp only [members, Json.without_append, Json.without_given_mem hk₁, Json.without_given_mem hk₂,
    Json.without_given_mem hk₃, Json.without_given_mem hk₄, Json.without_given_mem hk₅,
    Json.without_given_mem hk₆, Json.without_given_mem hk₇, hdigest, List.nil_append,
    Json.without_dropNonFiniteMembers hextras]

theorem SourceMapping.readFrom_members {m : SourceMapping} (hm : m.WellFormed) :
    ReadFrom m.members m.dropNonFinite := by
  have hnone : ∀ key ∈ names, Json.lookup key (Json.dropNonFiniteMembers m.extras) = none :=
    fun key hkey => Json.lookup_dropNonFiniteMembers_eq_none (hm.names key hkey)
  simp only [names, List.forall_mem_cons] at hnone
  obtain ⟨hstart, hlength, habsolute, hrelative, hlines, hfrom, hto, -, -⟩ := hnone
  refine ⟨?_, ?_, ?_, ?_, ?_, ?_, ?_, ?_, hm.without_fieldKeys_members.symm⟩
  · refine member_written_self .int ?_ (fun _ => rfl)
    simp [members, Json.lookup_append, Json.lookup_given, hstart, dropNonFinite]
  · refine member_written_self .int ?_ (fun _ => rfl)
    simp [members, Json.lookup_append, Json.lookup_given, hlength, dropNonFinite]
  · refine member_written_self .str ?_ (fun _ => rfl)
    simp [members, Json.lookup_append, Json.lookup_given, habsolute, dropNonFinite]
  · refine member_written_self .str ?_ (fun _ => rfl)
    simp [members, Json.lookup_append, Json.lookup_given, hrelative, dropNonFinite]
  · refine member_written_self (fun lines => .arr (lines.map .int)) ?_ list_integer
    simp [members, Json.lookup_append, Json.lookup_given, hlines, dropNonFinite]
  · refine member_written_self .int ?_ (fun _ => rfl)
    simp [members, Json.lookup_append, Json.lookup_given, hfrom, dropNonFinite]
  · refine member_written_self .int ?_ (fun _ => rfl)
    simp [members, Json.lookup_append, Json.lookup_given, hto, dropNonFinite]
  · refine member_written_self digestJson ?_ nullable_digestJson
    refine Json.lookup_keyOf_written hm.lookup_digest_members (fun hnone => ?_)
    have hsecond := Json.lookup_dropNonFiniteMembers_eq_none (hm.secondName hnone)
    simp [members, Json.lookup_append, Json.lookup_given, hsecond]

theorem SourceMapping.ofJson_members {m : SourceMapping} (hm : m.WellFormed) :
    ofJson (.obj m.members) = .ok m.dropNonFinite :=
  ofJson_eq_ok.2 ⟨m.members, rfl, readFrom_members hm⟩

theorem nullable_mappingJson {o : Option SourceMapping} (ho : ∀ m, o = some m → m.WellFormed) :
    nullable SourceMapping.ofJson (Element.mappingJson o) =
      .ok (o.map SourceMapping.dropNonFinite) := by
  cases o with
  | none => rfl
  | some m =>
    exact nullable_eq_ok.2
      (.inr ⟨Json.noConfusion, _, SourceMapping.ofJson_members (ho m rfl), rfl⟩)

theorem nullable_detailsJson (o : Option (List Json.Member)) :
    nullable dictionary (Element.detailsJson o) = .ok (o.map Json.dropNonFiniteMembers) := by
  cases o <;> rfl

theorem Element.WellFormed.lookup_kind_members {e : Element} (he : e.WellFormed) :
    Json.lookup "type" e.members = e.kind?.map .str := by
  have hextras := Json.lookup_dropNonFiniteMembers_eq_none (he.names "type" (by decide))
  simp [members, Json.lookup_append, Json.lookup_given, hextras]

theorem Element.WellFormed.lookup_extras_of_mem_fieldKeys {e : Element} (he : e.WellFormed) :
    ∀ key ∈ fieldKeys e.members, Json.lookup key e.extras = none := by
  have hkindKey : Json.lookup (kindKey e.members) e.extras = none :=
    Json.lookup_keyOf_extras he.lookup_kind_members (he.names _ (by decide)) he.secondName
  have hnames := he.names
  simp only [Element.names, List.forall_mem_cons] at hnames
  simp only [fieldKeys, List.forall_mem_cons]
  tauto

/-- What is left of a written element when its fields are taken out again: its extras. -/
theorem Element.WellFormed.without_fieldKeys_members {e : Element} (he : e.WellFormed) :
    Json.without (fieldKeys e.members) e.members = Json.dropNonFiniteMembers e.extras := by
  have hkind : Json.without (fieldKeys e.members) (Json.given "type" .str e.kind?) = [] :=
    Json.without_given_keyOf "element_type" he.lookup_kind_members (by simp [fieldKeys, kindKey])
  have hkeys : ∀ key ∈ ["name", "source_mapping", "type_specific_fields"],
      key ∈ fieldKeys e.members := by
    simp [fieldKeys]
  have hextras := he.lookup_extras_of_mem_fieldKeys
  generalize fieldKeys e.members = keys at hkind hextras hkeys
  simp only [List.forall_mem_cons] at hkeys
  obtain ⟨hk₁, hk₂, hk₃, -⟩ := hkeys
  simp only [members, Json.without_append, Json.without_given_mem hk₁, Json.without_given_mem hk₂,
    Json.without_given_mem hk₃, hkind, List.nil_append, Json.without_dropNonFiniteMembers hextras]

theorem Element.readFrom_members {e : Element} (he : e.WellFormed) :
    ReadFrom e.members e.dropNonFinite := by
  have hnone : ∀ key ∈ names, Json.lookup key (Json.dropNonFiniteMembers e.extras) = none :=
    fun key hkey => Json.lookup_dropNonFiniteMembers_eq_none (he.names key hkey)
  simp only [names, List.forall_mem_cons] at hnone
  obtain ⟨hname, -, hmapping, hdetails, -⟩ := hnone
  refine ⟨?_, ?_, ?_, ?_, he.without_fieldKeys_members.symm⟩
  · refine member_written_self .str ?_ (fun _ => rfl)
    simp [members, Json.lookup_append, Json.lookup_given, hname, dropNonFinite]
  · refine member_written_self .str ?_ (fun _ => rfl)
    refine Json.lookup_keyOf_written he.lookup_kind_members (fun hnone => ?_)
    have hsecond := Json.lookup_dropNonFiniteMembers_eq_none (he.secondName hnone)
    simp [members, Json.lookup_append, Json.lookup_given, hsecond]
  · refine member_written mappingJson (Option.map SourceMapping.dropNonFinite) ?_ ?_
    · simp [members, Json.lookup_append, Json.lookup_given, hmapping]
    · rintro o ho
      exact nullable_mappingJson (fun m hm => he.mapping m (by rw [ho, hm]))
  · refine member_written detailsJson (Option.map Json.dropNonFiniteMembers) ?_
      (fun o _ => nullable_detailsJson o)
    simp [members, Json.lookup_append, Json.lookup_given, hdetails]

theorem Element.ofJson_members {e : Element} (he : e.WellFormed) :
    ofJson (.obj e.members) = .ok e.dropNonFinite :=
  ofJson_eq_ok.2 ⟨e.members, rfl, readFrom_members he⟩

/-- Whether an extra of a finding stands where the stored document is asked for the state. -/
def Finding.HidesState (f : Finding) : Prop :=
  f.sync = .unknown ∧ (Json.lookup "in_sync" f.extras).isSome

instance (f : Finding) : Decidable f.HidesState := inferInstanceAs (Decidable (_ ∧ _))

/-- A known state as a value. -/
def SyncState.json : SyncState → Json
  | unknown => .null
  | inSync => .bool true
  | outOfSync => .bool false

theorem SyncState.given?_eq_none {state : SyncState} : state.given? = none ↔ state = unknown := by
  cases state <;> simp [given?]

theorem SyncState.members_eq (state : SyncState) :
    state.members = Json.given "_ext_in_sync" SyncState.json state.given? := by
  cases state <;> rfl

theorem SyncState.ofJson_json (state : SyncState) : ofJson state.json = .ok state := by
  cases state <;> rfl

theorem Finding.WellFormed.lookup_sync_members {f : Finding} (hf : f.WellFormed) :
    Json.lookup "_ext_in_sync" f.members = f.sync.given?.map SyncState.json := by
  have hextras := Json.lookup_dropNonFiniteMembers_eq_none (hf.names "_ext_in_sync" (by decide))
  simp [members, SyncState.members_eq, Json.lookup_append, Json.lookup_given, hextras]

/-- Where no state is written, nothing stands under the state's second name either. -/
theorem Finding.lookup_extras_of_not_hidesState {f : Finding} (hhides : ¬f.HidesState)
    (hgiven : f.sync.given? = none) : Json.lookup "in_sync" f.extras = none := by
  have hunknown : f.sync = .unknown := SyncState.given?_eq_none.1 hgiven
  exact Option.not_isSome_iff_eq_none.1 (fun hsome => hhides ⟨hunknown, hsome⟩)

theorem Finding.WellFormed.lookup_extras_of_mem_fieldKeys {f : Finding} (hf : f.WellFormed)
    (hhides : ¬f.HidesState) : ∀ key ∈ fieldKeys f.members, Json.lookup key f.extras = none := by
  have hsyncKey : Json.lookup (syncKey f.members) f.extras = none :=
    Json.lookup_keyOf_extras hf.lookup_sync_members (hf.names _ (by decide))
      (lookup_extras_of_not_hidesState hhides)
  have hnames := hf.names
  simp only [Finding.names, List.forall_mem_cons] at hnames
  simp only [fieldKeys, List.forall_mem_cons]
  tauto

/-- What is left of a written finding when its fields are taken out again: its extras. -/
theorem Finding.WellFormed.without_fieldKeys_members {f : Finding} (hf : f.WellFormed)
    (hhides : ¬f.HidesState) :
    Json.without (fieldKeys f.members) f.members = Json.dropNonFiniteMembers f.extras := by
  have hsync : Json.without (fieldKeys f.members)
      (Json.given "_ext_in_sync" SyncState.json f.sync.given?) = [] :=
    Json.without_given_keyOf "in_sync" hf.lookup_sync_members (by simp [fieldKeys, syncKey])
  have hkeys : ∀ key ∈ ["check", "confidence", "impact", "description", "elements"],
      key ∈ fieldKeys f.members := by
    simp [fieldKeys]
  have hextras := hf.lookup_extras_of_mem_fieldKeys hhides
  generalize fieldKeys f.members = keys at hsync hextras hkeys
  simp only [List.forall_mem_cons] at hkeys
  obtain ⟨hk₁, hk₂, hk₃, hk₄, hk₅, -⟩ := hkeys
  simp only [members, SyncState.members_eq, Json.without_append, Json.without_given_mem hk₁,
    Json.without_given_mem hk₂, Json.without_given_mem hk₃, Json.without_given_mem hk₄,
    Json.without_given_mem hk₅, hsync, List.nil_append, Json.without_dropNonFiniteMembers hextras]

theorem Finding.readFrom_members {f : Finding} (hf : f.WellFormed) (hhides : ¬f.HidesState) :
    ReadFrom f.members f.stored := by
  have hnone : ∀ key ∈ names, Json.lookup key (Json.dropNonFiniteMembers f.extras) = none :=
    fun key hkey => Json.lookup_dropNonFiniteMembers_eq_none (hf.names key hkey)
  simp only [names, List.forall_mem_cons] at hnone
  obtain ⟨hcheck, hconfidence, himpact, hdescription, helements, -, -⟩ := hnone
  refine ⟨?_, ?_, ?_, ?_, ?_, ?_, (hf.without_fieldKeys_members hhides).symm⟩
  · refine member_written_self .str ?_ (fun _ => rfl)
    simp [members, SyncState.members_eq, Json.lookup_append, Json.lookup_given, hcheck, stored]
  · refine member_written_self .str ?_ (fun _ => rfl)
    simp [members, SyncState.members_eq, Json.lookup_append, Json.lookup_given, hconfidence, stored]
  · refine member_written_self .str ?_ (fun _ => rfl)
    simp [members, SyncState.members_eq, Json.lookup_append, Json.lookup_given, himpact, stored]
  · refine member_written_self .str ?_ (fun _ => rfl)
    simp [members, SyncState.members_eq, Json.lookup_append, Json.lookup_given,
      hdescription, stored]
  · refine member_written (fun es => .arr (es.map fun e => .obj e.members))
      (List.map Element.dropNonFinite) ?_ ?_
    · simp [members, SyncState.members_eq, Json.lookup_append, Json.lookup_given, helements]
    · intro es hes
      rw [list_eq_ok]
      refine ⟨_, rfl, ?_⟩
      rw [List.forall₂_map_left_iff, List.forall₂_map_right_iff, List.forall₂_same]
      exact fun e he => Element.ofJson_members (hf.elements es hes e he)
  · refine member_written_self SyncState.json ?_ SyncState.ofJson_json
    refine Json.lookup_keyOf_written hf.lookup_sync_members (fun hgiven => ?_)
    have hextras := Json.lookup_dropNonFiniteMembers_eq_none
      (lookup_extras_of_not_hidesState hhides hgiven)
    simp [members, SyncState.members_eq, Json.lookup_append, Json.lookup_given, hextras]

/-! ## Documents of documents -/

theorem Json.given_map {α β : Type} (key : String) (toJson : β → Json) (norm : α → β)
    (o : Option α) : given key toJson (o.map norm) = given key (toJson ∘ norm) o := by
  cases o <;> rfl

theorem SourceMapping.members_dropNonFinite (m : SourceMapping) :
    m.dropNonFinite.members = m.members := by
  simp only [members, dropNonFinite, Json.dropNonFiniteMembers_idem]

theorem Element.members_dropNonFinite (e : Element) : e.dropNonFinite.members = e.members := by
  have hmapping : mappingJson ∘ Option.map SourceMapping.dropNonFinite = mappingJson := by
    funext o
    cases o with
    | none => rfl
    | some m => exact congrArg Json.obj m.members_dropNonFinite
  have hdetails : detailsJson ∘ Option.map Json.dropNonFiniteMembers = detailsJson := by
    funext o
    cases o with
    | none => rfl
    | some details => exact congrArg Json.obj (Json.dropNonFiniteMembers_idem details)
  simp only [members, dropNonFinite, Json.given_map, hmapping, hdetails,
    Json.dropNonFiniteMembers_idem]

theorem Finding.sync_stored (f : Finding) : f.stored.sync = f.sync := by
  rw [sync, stored]
  cases f.sync <;> rfl

theorem Finding.document_stored (f : Finding) : f.stored.document = f.document := by
  have helements : (fun es : List Element => Json.arr (es.map fun e => .obj e.members)) ∘
      List.map Element.dropNonFinite = fun es => .arr (es.map fun e => .obj e.members) := by
    funext es
    rw [Function.comp, List.map_map]
    exact congrArg Json.arr
      (List.map_congr_left (fun e _ => congrArg Json.obj e.members_dropNonFinite))
  rw [document, document, members, members, sync_stored]
  simp only [stored, Json.given_map, helements, Json.dropNonFiniteMembers_idem]

/-- **What is written is read back**: the same document again, and the same state. -/
theorem Finding.ofJson_document {f : Finding} (hf : f.WellFormed) (hhides : ¬f.HidesState) :
    ofJson f.document = .ok f.stored :=
  ofJson_eq_ok.2 ⟨f.members, rfl, readFrom_members hf hhides⟩

/-- **A hidden key comes forward.** It is taken for the state, so that it is no extra of
what is read, and no document of that has it. -/
theorem Finding.document_ne_of_hidesState {f g : Finding} (hf : f.WellFormed)
    (hhides : f.HidesState)
    (hg : ofJson f.document = .ok g) : g.document ≠ f.document := by
  obtain ⟨_, heq, hread⟩ := ofJson_eq_ok.1 hg
  cases heq
  obtain ⟨hunknown, hsome⟩ := hhides
  have hfirst : Json.lookup "_ext_in_sync" f.members = none := by
    have hextras := Json.lookup_dropNonFiniteMembers_eq_none (hf.names "_ext_in_sync" (by decide))
    simp [members, hunknown, SyncState.members, Json.lookup_append, Json.lookup_given, hextras]
  have hsecond : Json.lookup "in_sync" f.members =
      (Json.lookup "in_sync" f.extras).map Json.dropNonFinite := by
    simp [members, hunknown, SyncState.members, Json.lookup_append, Json.lookup_given,
      Json.lookup_dropNonFiniteMembers]
  have htaken : Json.lookup "in_sync" g.extras = none := by
    rw [hread.extras, Json.lookup_without, if_pos]
    simp [fieldKeys, syncKey, keyOf, hfirst]
  have hgone : Json.lookup "in_sync" g.members = none := by
    have hextras := Json.lookup_dropNonFiniteMembers_eq_none htaken
    simp [members, SyncState.members_eq, Json.lookup_append, Json.lookup_given, hextras]
  intro hsame
  have hmembers : g.members = f.members := Json.obj.inj hsame
  rw [hmembers, hsecond, Option.map_eq_none_iff] at hgone
  rw [hgone] at hsome
  cases hsome

/-! ## Keys of a document -/

theorem SourceMapping.hasUniqueKeys_members {m : SourceMapping} (hm : m.WellFormed) :
    (Json.obj m.members).hasUniqueKeys = true := by
  have hlines : ∀ lines : List Int, (Json.arr (lines.map .int)).hasUniqueKeys = true := by
    intro lines
    rw [Json.hasUniqueKeys, Json.haveUniqueKeys_iff]
    intro v hv
    obtain ⟨n, -, rfl⟩ := List.mem_map.1 hv
    rfl
  have hdigest : ∀ digest, (digestJson digest).hasUniqueKeys = true := by
    rintro (_ | _) <;> rfl
  refine Json.hasUniqueKeys_row (by decide : names.Nodup) ?_ hm.names ?_ hm.unique
  · simp only [List.map_append]
    have hnames : names = ["start"] ++ ["length"] ++ ["filename_absolute"] ++
      ["filename_relative"] ++ ["lines"] ++ ["starting_column"] ++ ["ending_column"] ++
      ["_ext_source_hash"] := rfl
    rw [hnames]
    repeat' apply List.Sublist.append
    all_goals exact Json.map_fst_given_sublist ..
  · simp only [Json.membersHaveUniqueKeys_append, Bool.and_eq_true]
    refine ⟨⟨⟨⟨⟨⟨⟨?_, ?_⟩, ?_⟩, ?_⟩, ?_⟩, ?_⟩, ?_⟩, ?_⟩
    all_goals first
      | exact Json.membersHaveUniqueKeys_given (fun _ _ => rfl)
      | exact Json.membersHaveUniqueKeys_given (fun lines _ => hlines lines)
      | exact Json.membersHaveUniqueKeys_given (fun digest _ => hdigest digest)

theorem Element.hasUniqueKeys_members {e : Element} (he : e.WellFormed) :
    (Json.obj e.members).hasUniqueKeys = true := by
  have hmapping : ∀ o, e.mapping? = some o → (mappingJson o).hasUniqueKeys = true := by
    rintro (_ | m) ho
    · rfl
    · exact SourceMapping.hasUniqueKeys_members (he.mapping m ho)
  have hdetails : ∀ o, e.details? = some o → (detailsJson o).hasUniqueKeys = true := by
    rintro (_ | details) ho
    · rfl
    · exact (Json.hasUniqueKeys_dropNonFinite (.obj details)).trans (he.details details ho)
  refine Json.hasUniqueKeys_row (by decide : names.Nodup) ?_ he.names ?_ he.unique
  · simp only [List.map_append]
    have hnames : names = ["name"] ++ ["type"] ++ ["source_mapping"] ++ ["type_specific_fields"] :=
      rfl
    rw [hnames]
    repeat' apply List.Sublist.append
    all_goals exact Json.map_fst_given_sublist ..
  · simp only [Json.membersHaveUniqueKeys_append, Bool.and_eq_true]
    exact ⟨⟨⟨Json.membersHaveUniqueKeys_given (fun _ _ => rfl),
      Json.membersHaveUniqueKeys_given (fun _ _ => rfl)⟩,
      Json.membersHaveUniqueKeys_given hmapping⟩, Json.membersHaveUniqueKeys_given hdetails⟩

/-- **No document of a well-formed finding lists a key twice.** -/
theorem Finding.hasUniqueKeys_document {f : Finding} (hf : f.WellFormed) :
    f.document.hasUniqueKeys = true := by
  have helements : ∀ es, f.elements? = some es →
      (Json.arr (es.map fun e => .obj e.members)).hasUniqueKeys = true := by
    intro es hes
    rw [Json.hasUniqueKeys, Json.haveUniqueKeys_iff]
    intro v hv
    obtain ⟨e, he, rfl⟩ := List.mem_map.1 hv
    exact Element.hasUniqueKeys_members (hf.elements es hes e he)
  refine Json.hasUniqueKeys_row (by decide : names.Nodup) ?_ hf.names ?_ hf.unique
  · simp only [SyncState.members_eq, List.map_append]
    have hnames : names = ["check"] ++ ["confidence"] ++ ["impact"] ++ ["description"] ++
      ["elements"] ++ ["_ext_in_sync"] := rfl
    rw [hnames]
    repeat' apply List.Sublist.append
    all_goals exact Json.map_fst_given_sublist ..
  · simp only [SyncState.members_eq, Json.membersHaveUniqueKeys_append, Bool.and_eq_true]
    exact ⟨⟨⟨⟨⟨Json.membersHaveUniqueKeys_given (fun _ _ => rfl),
      Json.membersHaveUniqueKeys_given (fun _ _ => rfl)⟩,
      Json.membersHaveUniqueKeys_given (fun _ _ => rfl)⟩,
      Json.membersHaveUniqueKeys_given (fun _ _ => rfl)⟩,
      Json.membersHaveUniqueKeys_given helements⟩,
      Json.membersHaveUniqueKeys_given (fun state _ => by cases state <;> rfl)⟩

end SourceDrift
