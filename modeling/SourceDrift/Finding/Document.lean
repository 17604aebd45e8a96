/-
Findings as documents, in both directions.

A document's keys are the model's fields under their document names and any
others. Reading sorts them into fields and extras; writing puts the fields that
were given first, in the order of the model, and the extras after them in the
order they came. Two fields have a second name that a document may use instead of
the first; where both are present the first is the field and the second an extra.

The sync state is written as `true` or `false` and left out while it is unknown.

Values under other keys are kept as they came and are not looked into until they are
put down again. That goes down to a fixed level only, so that a finding may be read
whose document cannot be made.
-/
import SourceDrift.Failure
import SourceDrift.Finding.Basic
import SourceDrift.Json.Writer
import SourceDrift.Validation

set_option autoImplicit false

namespace SourceDrift

open Checked

/-- The member for a field that was given. -/
def Json.given {α : Type} (key : String) (toJson : α → Json) : Option α → List Json.Member
  | none => []
  | some a => [(key, toJson a)]

/-! ## Values that are kept as they came -/

namespace Json

/-- The levels down to which a kept value is put down. -/
def keptLevels : Nat := 254

/-- Whether a kept value can be put down. -/
def isShallow (v : Json) : Bool :=
  decide (v.levels ≤ keptLevels)

/-- Whether the members of an object can be put down. -/
def hasShallowMembers : Json → Bool
  | .obj members => members.all fun m => m.2.isShallow
  | v => v.isShallow

/-- Whether an element's document can be put down. A mapping and details are no kept
values themselves, but their members may be. -/
def isShallowElement : Json → Bool
  | .obj members => members.all fun m =>
    if m.1 = "source_mapping" ∨ m.1 = "type_specific_fields" then m.2.hasShallowMembers
    else m.2.isShallow
  | v => v.isShallow

/-- Whether the documents of elements can be put down. -/
def hasShallowElements : Json → Bool
  | .arr items => items.all isShallowElement
  | v => v.isShallow

/-- Whether a finding's document can be put down. -/
def isShallowFinding : Json → Bool
  | .obj members => members.all fun m =>
    if m.1 = "elements" then m.2.hasShallowElements else m.2.isShallow
  | v => v.isShallow

end Json

/-! ## Source mappings -/

namespace SourceMapping

/-- The key under which a document gives the digest. -/
def digestKey (members : List Json.Member) : String :=
  keyOf members "_ext_source_hash" "source_hash"

/-- The keys of a mapping that are fields. -/
def fieldKeys (members : List Json.Member) : List String :=
  ["start", "length", "filename_absolute", "filename_relative", "lines", "starting_column",
    "ending_column", digestKey members]

/-- Reads a mapping. -/
def ofJson : Json → Checked SourceMapping
  | .obj members =>
    (both (member integer "start" members)
      (both (member integer "length" members)
        (both (member text "filename_absolute" members)
          (both (member text "filename_relative" members)
            (both (member (list integer) "lines" members)
              (both (member integer "starting_column" members)
                (both (member integer "ending_column" members)
                  (member (nullable text) (digestKey members) members)))))))).map
      fun (start, length, absolute, relative, lines, startColumn, endColumn, digest) =>
        ⟨start, length, absolute, relative, lines, startColumn, endColumn, digest,
          Json.without (fieldKeys members) members⟩
  | _ => fail .notAnObject

/-- A digest as a value. -/
def digestJson : Option String → Json
  | none => .null
  | some digest => .str digest

/-- The members that write a mapping. -/
def members (m : SourceMapping) : List Json.Member :=
  Json.given "start" .int m.start? ++ Json.given "length" .int m.length? ++
    Json.given "filename_absolute" .str m.absolute? ++
    Json.given "filename_relative" .str m.relative? ++
    Json.given "lines" (fun lines => .arr (lines.map .int)) m.lines? ++
    Json.given "starting_column" .int m.startColumn? ++
    Json.given "ending_column" .int m.endColumn? ++
    Json.given "_ext_source_hash" digestJson m.digest? ++
    Json.dropNonFiniteMembers m.extras

/-- The mapping without what the drift check keeps in it. An extra under the
digest's second name goes too. -/
def content (m : SourceMapping) : SourceMapping :=
  { m with digest? := none, extras := Json.without ["source_hash"] m.extras }

end SourceMapping

/-! ## Elements -/

namespace Element

/-- The key under which a document gives the kind. -/
def kindKey (members : List Json.Member) : String :=
  keyOf members "type" "element_type"

/-- The keys of an element that are fields. -/
def fieldKeys (members : List Json.Member) : List String :=
  ["name", kindKey members, "source_mapping", "type_specific_fields"]

/-- Reads an element. -/
def ofJson : Json → Checked Element
  | .obj members =>
    (both (member text "name" members)
      (both (member text (kindKey members) members)
        (both (member (nullable SourceMapping.ofJson) "source_mapping" members)
          (member (nullable dictionary) "type_specific_fields" members)))).map
      fun (name, kind, mapping, details) =>
        ⟨name, kind, mapping, details, Json.without (fieldKeys members) members⟩
  | _ => fail .notAnObject

/-- A source mapping as a value. -/
def mappingJson : Option SourceMapping → Json
  | none => .null
  | some m => .obj m.members

/-- Details as a value. -/
def detailsJson : Option (List Json.Member) → Json
  | none => .null
  | some details => .obj (Json.dropNonFiniteMembers details)

/-- The members that write an element. -/
def members (e : Element) : List Json.Member :=
  Json.given "name" .str e.name? ++ Json.given "type" .str e.kind? ++
    Json.given "source_mapping" mappingJson e.mapping? ++
    Json.given "type_specific_fields" detailsJson e.details? ++
    Json.dropNonFiniteMembers e.extras

/-- The element without what the drift check keeps in it. -/
def content (e : Element) : Element :=
  { e with mapping? := e.mapping?.map (Option.map SourceMapping.content) }

end Element

/-! ## Findings -/

namespace SyncState

/-- Reads a sync state: a truth value, `null`, or the state's own word. -/
def ofJson : Json → Checked SyncState
  | .null => .ok .unknown
  | .bool true => .ok .inSync
  | .bool false => .ok .outOfSync
  | .str "unknown" => .ok .unknown
  | .str "in_sync" => .ok .inSync
  | .str "out_of_sync" => .ok .outOfSync
  | _ => fail .unknownChoice

/-- The member that writes a state; the unknown state is not written. -/
def members : SyncState → List Json.Member
  | unknown => []
  | inSync => [("_ext_in_sync", .bool true)]
  | outOfSync => [("_ext_in_sync", .bool false)]

end SyncState

namespace Finding

/-- The key under which a document gives the sync state. -/
def syncKey (members : List Json.Member) : String :=
  keyOf members "_ext_in_sync" "in_sync"

/-- The keys of a finding that are fields. -/
def fieldKeys (members : List Json.Member) : List String :=
  ["check", "confidence", "impact", "description", "elements", syncKey members]

/-- **Reads a finding**, or names every fault of the document. -/
def ofJson : Json → Checked Finding
  | .obj members =>
    (both (member text "check" members)
      (both (member text "confidence" members)
        (both (member text "impact" members)
          (both (member text "description" members)
            (both (member (list Element.ofJson) "elements" members)
              (member SyncState.ofJson (syncKey members) members)))))).map
      fun (check, confidence, impact, description, elements, sync) =>
        ⟨check, confidence, impact, description, elements, sync,
          Json.without (fieldKeys members) members⟩
  | _ => fail .notAnObject

/-- The members that write a finding. -/
def members (f : Finding) : List Json.Member :=
  Json.given "check" .str f.check? ++ Json.given "confidence" .str f.confidence? ++
    Json.given "impact" .str f.impact? ++ Json.given "description" .str f.description? ++
    Json.given "elements" (fun es => .arr (es.map fun e => .obj e.members)) f.elements? ++
    f.sync.members ++ Json.dropNonFiniteMembers f.extras

/-- **The document of a finding**: what is stored, and what `ofJson` reads back. -/
def document (f : Finding) : Json :=
  .obj f.members

/-- **Puts a finding down** as its document, which a value that goes too deep prevents. -/
def dump (f : Finding) : Except Failure Json :=
  if f.document.isShallowFinding then .ok f.document else .error .tooDeep

/-- The finding without what the drift check keeps in it: what the analyser said
and nothing else. -/
def content (f : Finding) : Finding :=
  { f with
    elements? := f.elements?.map (List.map Element.content)
    sync? := none
    extras := Json.without ["in_sync"] f.extras }

/-- **The canonical form of a finding**: the canonical text of its content. Two
findings are duplicates when they have one canonical form. -/
def canonical (f : Finding) : String :=
  f.content.document.canonical

/-- Why the canonical form cannot be made, if it cannot: the content goes too deep, or
an integer in it has too many digits to be shown. -/
def formFailure? (f : Finding) : Option Failure :=
  if !f.content.document.isShallowFinding then some .tooDeep
  else if !f.content.document.isWritable then some .unshowable
  else none

/-- Whether the canonical form can be made. -/
def hasCanonical (f : Finding) : Bool :=
  f.formFailure?.isNone

end Finding
end SourceDrift
