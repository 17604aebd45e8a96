/-
What a document says is what its finding says.

A reader of documents wants to know what becomes of each member, and need not know how a
finding is kept in memory. So the three kinds of objects are described as documents: a
`DocumentField` is a key with the name that may stand for it and with what is written for a
value, `rearrange` puts the fields first and leaves the rest as it was, and `change` says the
same of one member at a time. That the two agree is a fact about lists of fields whose names
are all different. That a document which is read and written again is the document rearranged
is then shown field by field, from the inside out.
-/
import SourceDrift.Proofs.Finding.Content
import SourceDrift.Proofs.Json.Tokens

set_option autoImplicit false

namespace SourceDrift

open Checked

/-! ## Members under some keys -/

namespace Json

variable {members : List Member}

end Json

/-! ## Fields of documents -/

/-- A field of an object: the key under which it is written, another key under which it may be
given instead, and the value that is written for a given one, if any is. -/
structure DocumentField where
  key : String
  other? : Option String
  written? : Json → Option Json

namespace DocumentField

/-- The keys that a field may be given under. -/
def names (field : DocumentField) : List String :=
  field.key :: field.other?.toList

/-- The key under which an object gives a field: the other one only where the first is absent. -/
def source (members : List Json.Member) (field : DocumentField) : String :=
  match field.other? with
  | some other => if (Json.lookup field.key members).isSome then field.key else other
  | none => field.key

/-- What is written for a member that gives a field. -/
def written (field : DocumentField) (v : Json) : List Json.Member :=
  ((field.written? v).map fun w => (field.key, w)).toList

/-- What is written for a field of an object. -/
def writtenOf (members : List Json.Member) (field : DocumentField) : List Json.Member :=
  ((Json.lookup (field.source members) members).map field.written).getD []

/-- **The members with the fields first**, in the order of the fields, and all others behind them
as they are. -/
def rearrange (fields : List DocumentField) (members : List Json.Member) : List Json.Member :=
  fields.flatMap (writtenOf members) ++ Json.without (fields.map (source members)) members

/-- **What becomes of a member**: if it gives a field it is written as the field is, and if not it
stays as it is. -/
def change (fields : List DocumentField) (members : List Json.Member) (m : Json.Member) :
    List Json.Member :=
  match fields.find? fun field => field.source members = m.1 with
  | some field => field.written m.2
  | none => [m]

/-- A field with one key, written as its value is changed. -/
def plain (key : String) (change : Json → Json) : DocumentField :=
  ⟨key, none, fun v => some (change v)⟩

/-! ### Member by member -/

section

variable {fields : List DocumentField} {members : List Json.Member}

end

end DocumentField

/-! ## The three kinds of objects -/

/-- The integer that a value denotes; other values as they are. -/
def Json.integerOf : Json → Json
  | .bool b => .int (if b then 1 else 0)
  | .float x => (x.toInt?).elim (.float x) .int
  | .str s =>
    match IntegerText.read s with
    | .ok n => .int n
    | .error _ => .str s
  | v => v

/-- An object with its fields first; other values as they are. -/
def Json.rearrange (fields : List DocumentField) : Json → Json
  | .obj members => .obj (DocumentField.rearrange fields members)
  | v => v

/-- A known state as a truth value; nothing for other values. -/
def Json.truthOfState : Json → Option Json
  | .bool b => some (.bool b)
  | .str "in_sync" => some (.bool true)
  | .str "out_of_sync" => some (.bool false)
  | _ => none

/-- The fields of a mapping's object. -/
def SourceMapping.documentFields : List DocumentField :=
  [.plain "start" Json.integerOf, .plain "length" Json.integerOf, .plain "filename_absolute" id,
    .plain "filename_relative" id, .plain "lines" (Json.changeItems Json.integerOf),
    .plain "starting_column" Json.integerOf, .plain "ending_column" Json.integerOf,
    ⟨"_ext_source_hash", some "source_hash", some⟩]

/-- The fields of an element's object. -/
def Element.documentFields : List DocumentField :=
  [.plain "name" id, ⟨"type", some "element_type", some⟩,
    .plain "source_mapping" (Json.rearrange SourceMapping.documentFields),
    .plain "type_specific_fields" id]

/-- The fields of a finding's object. -/
def Finding.documentFields : List DocumentField :=
  [.plain "check" id, .plain "confidence" id, .plain "impact" id, .plain "description" id,
    .plain "elements" (Json.changeItems (Json.rearrange Element.documentFields)),
    ⟨"_ext_in_sync", some "in_sync", Json.truthOfState⟩]

/-! ## Reading and writing, field by field -/

theorem Json.isFinite_of_lookup {key : String} {v : Json} {members : List Json.Member}
    (hfinite : (Json.obj members).isFinite = true) (h : lookup key members = some v) :
    v.isFinite = true := by
  rw [isFinite, membersFinite_iff] at hfinite
  exact hfinite _ (mem_of_lookup h)

/-- What is left of a finite object when its fields are taken out is written as it is. -/
theorem Json.dropNonFiniteMembers_extras {members extras : List Json.Member} {keys : List String}
    (hextras : extras = without keys members) (hfinite : (Json.obj members).isFinite = true) :
    dropNonFiniteMembers extras = without keys members := by
  rw [isFinite] at hfinite
  rw [hextras, dropNonFiniteMembers_without, dropNonFiniteMembers_eq_self hfinite]

theorem integer_eq_ok {v : Json} {n : Int} (h : integer v = .ok n) : v.integerOf = .int n := by
  -- A truth value, a whole float and a text of digits stand for integers as well.
  cases v with
  | int m =>
    cases h
    rfl
  | bool b =>
    cases h
    rfl
  | float x =>
    rw [integer, integerOfFloat] at h
    split at h
    · cases h
    · split at h
      · cases h
      · next m hm =>
        split at h
        · cases h
          rw [Json.integerOf, hm]
          rfl
        · cases h
  | str s =>
    rw [integer, integerOfText] at h
    rw [Json.integerOf]
    cases hread : IntegerText.read s with
    | ok m =>
      rw [hread] at h
      cases h
      rfl
    | error problem =>
      rw [hread] at h
      cases problem <;> cases h
  | null | arr _ | obj _ => cases h

theorem list_integer_eq_ok {v : Json} {ns : List Int} (h : list integer v = .ok ns) :
    v.changeItems Json.integerOf = .arr (ns.map .int) := by
  obtain ⟨vs, rfl, hall⟩ := list_eq_ok.1 h
  have hitems : ns.map Json.int = vs.map Json.integerOf :=
    map_eq_of_forall₂ (fun _ _ _ hv => (integer_eq_ok hv).symm) hall
  rw [Json.changeItems, hitems]

namespace DocumentField

variable {α : Type} {members : List Json.Member} {field : DocumentField} {check : Json → Checked α}
  {toJson : α → Json} {o : Option α}

/-- **A field that has been read is written again** as its value is. -/
theorem writtenOf_eq_given (hmember : member check (field.source members) members = .ok o)
    (hwritten : ∀ v a, Json.lookup (field.source members) members = some v → check v = .ok a →
      field.written? v = some (toJson a)) :
    writtenOf members field = Json.given field.key toJson o := by
  rcases member_eq_ok.1 hmember with ⟨hnone, rfl⟩ | ⟨v, a, hsome, hcheck, rfl⟩
  · rw [writtenOf, hnone]
    rfl
  · rw [writtenOf, hsome, Option.map_some, Option.getD_some, written, hwritten v a hsome hcheck]
    rfl

/-- A field that is written as it was given. -/
theorem writtenOf_eq_given_self (hfield : field.written? = some)
    (hmember : member check (field.source members) members = .ok o)
    (hsame : ∀ v a, Json.lookup (field.source members) members = some v → check v = .ok a →
      v = toJson a) :
    writtenOf members field = Json.given field.key toJson o := by
  refine writtenOf_eq_given hmember (fun v a hv hcheck => ?_)
  rw [hfield, hsame v a hv hcheck]

end DocumentField

open DocumentField

/-! ## From the inside out -/

theorem digestJson_of_nullable {v : Json} {digest : Option String}
    (h : nullable text v = .ok digest) : v = SourceMapping.digestJson digest := by
  rcases nullable_eq_ok.1 h with ⟨rfl, rfl⟩ | ⟨-, s, hs, rfl⟩
  · rfl
  · exact text_eq_ok.1 hs

theorem detailsJson_of_nullable {v : Json} {details : Option (List Json.Member)}
    (h : nullable dictionary v = .ok details) (hfinite : v.isFinite = true) :
    v = Element.detailsJson details := by
  rcases nullable_eq_ok.1 h with ⟨rfl, rfl⟩ | ⟨-, members, hmembers, rfl⟩
  · rfl
  · obtain rfl := dictionary_eq_ok hmembers
    exact (Json.dropNonFinite_eq_self hfinite).symm

variable {members : List Json.Member}

/-- What is read of a text field is written as it was given. -/
theorem writtenOf_text {key : String} {o : Option String} (h : member text key members = .ok o) :
    writtenOf members (.plain key id) = Json.given key .str o :=
  writtenOf_eq_given_self rfl h fun _ _ _ hv => text_eq_ok.1 hv

/-- **A mapping is written as its object rearranged.** -/
theorem SourceMapping.members_of_read {m : SourceMapping} (h : ReadFrom members m)
    (hfinite : (Json.obj members).isFinite = true) :
    m.members = rearrange documentFields members := by
  have hinteger : ∀ {key o}, member integer key members = .ok o →
      writtenOf members (.plain key Json.integerOf) = Json.given key .int o := fun hmember =>
    writtenOf_eq_given hmember fun _ _ _ hv => congrArg some (integer_eq_ok hv)
  have hlines : writtenOf members (.plain "lines" (Json.changeItems Json.integerOf)) =
      Json.given "lines" (fun lines => .arr (lines.map .int)) m.lines? :=
    writtenOf_eq_given h.lines fun _ _ _ hv => congrArg some (list_integer_eq_ok hv)
  have hdigest : writtenOf members ⟨"_ext_source_hash", some "source_hash", some⟩ =
      Json.given "_ext_source_hash" digestJson m.digest? :=
    writtenOf_eq_given_self rfl h.digest fun _ _ _ hv => digestJson_of_nullable hv
  have hextras : Json.dropNonFiniteMembers m.extras =
      Json.without (documentFields.map (source members)) members :=
    Json.dropNonFiniteMembers_extras h.extras hfinite
  rw [SourceMapping.members, rearrange, hextras, ← hinteger h.start, ← hinteger h.length,
    ← writtenOf_text h.absolute, ← writtenOf_text h.relative, ← hlines, ← hinteger h.startColumn,
    ← hinteger h.endColumn, ← hdigest]
  simp [documentFields]

/-- **An element is written as its object rearranged**, with its mapping. -/
theorem Element.members_of_read {e : Element} (h : ReadFrom members e)
    (hfinite : (Json.obj members).isFinite = true) :
    e.members = rearrange documentFields members := by
  have hkind : writtenOf members ⟨"type", some "element_type", some⟩ =
      Json.given "type" .str e.kind? :=
    writtenOf_eq_given_self rfl h.kind fun _ _ _ hv => text_eq_ok.1 hv
  have hmapping : writtenOf members
      (.plain "source_mapping" (Json.rearrange SourceMapping.documentFields)) =
        Json.given "source_mapping" mappingJson e.mapping? := by
    refine writtenOf_eq_given h.mapping fun v o hlookup hv => congrArg some ?_
    rcases nullable_eq_ok.1 hv with ⟨rfl, rfl⟩ | ⟨-, m, hm, rfl⟩
    · rfl
    · obtain ⟨inner, rfl, hread⟩ := SourceMapping.ofJson_eq_ok.1 hm
      have hinner := SourceMapping.members_of_read hread (Json.isFinite_of_lookup hfinite hlookup)
      rw [Json.rearrange, mappingJson, hinner]
  have hdetails : writtenOf members (.plain "type_specific_fields" id) =
      Json.given "type_specific_fields" detailsJson e.details? :=
    writtenOf_eq_given_self rfl h.details fun _ _ hlookup hv =>
      detailsJson_of_nullable hv (Json.isFinite_of_lookup hfinite hlookup)
  have hextras : Json.dropNonFiniteMembers e.extras =
      Json.without (documentFields.map (source members)) members :=
    Json.dropNonFiniteMembers_extras h.extras hfinite
  rw [Element.members, rearrange, hextras, ← writtenOf_text h.name, ← hkind, ← hmapping, ← hdetails]
  simp [documentFields]

/-- A state that has been read is written as a truth value, or not at all. -/
theorem writtenOf_sync {o : Option SyncState}
    (h : member SyncState.ofJson (Finding.syncKey members) members = .ok o) :
    writtenOf members ⟨"_ext_in_sync", some "in_sync", Json.truthOfState⟩ =
      (o.getD .unknown).members := by
  have hsource : source members ⟨"_ext_in_sync", some "in_sync", Json.truthOfState⟩ =
      Finding.syncKey members := rfl
  rw [writtenOf, hsource]
  rcases member_eq_ok.1 h with ⟨hnone, rfl⟩ | ⟨v, state, hsome, hstate, rfl⟩
  · rw [hnone]
    rfl
  · -- Each spelling of a state that is accepted is written as the state it was read as.
    rw [hsome]
    unfold SyncState.ofJson at hstate
    split at hstate
    all_goals cases hstate
    all_goals rfl

/-- **A finding is written as its document rearranged**, with its elements. -/
theorem Finding.members_of_read {f : Finding} (h : ReadFrom members f)
    (hfinite : (Json.obj members).isFinite = true) :
    f.members = rearrange documentFields members := by
  have helements : writtenOf members
      (.plain "elements" (Json.changeItems (Json.rearrange Element.documentFields))) =
        Json.given "elements" (fun es => .arr (es.map fun e => .obj e.members)) f.elements? := by
    refine writtenOf_eq_given h.elements fun v es hlookup hv => congrArg some ?_
    obtain ⟨vs, rfl, hall⟩ := list_eq_ok.1 hv
    have hfinites : ∀ u ∈ vs, u.isFinite = true :=
      Json.areFinite_iff.1 (Json.isFinite_of_lookup hfinite hlookup)
    have hitems : (es.map fun e => Json.obj e.members) =
        vs.map (Json.rearrange Element.documentFields) := by
      refine map_eq_of_forall₂ (fun u hu e he => ?_) hall
      obtain ⟨inner, rfl, hread⟩ := Element.ofJson_eq_ok.1 he
      rw [Json.rearrange, Element.members_of_read hread (hfinites _ hu)]
    rw [Json.changeItems, hitems]
  have hextras : Json.dropNonFiniteMembers f.extras =
      Json.without (documentFields.map (source members)) members :=
    Json.dropNonFiniteMembers_extras h.extras hfinite
  rw [Finding.members, rearrange, hextras, ← writtenOf_text h.check, ← writtenOf_text h.confidence,
    ← writtenOf_text h.impact, ← writtenOf_text h.description, ← helements, Finding.sync,
    ← writtenOf_sync h.sync]
  simp [documentFields]

end SourceDrift
