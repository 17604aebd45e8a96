/-
Findings, their elements and the places in the sources they point at.

A document may leave any field out, and what is left out stays out when the
finding is written again. So every field of a model is optional, `none` meaning
that it was not given, and beside the optional field stands an accessor with the
value that an absent field counts as. Keys that the model does not know are kept
in `extras` in the order of the document.

Only two things change after a finding has been read: its sync state and the
digests of its source mappings.
-/
import SourceDrift.Json.Value

set_option autoImplicit false

namespace SourceDrift

/-- Whether the sources that a finding points at are still what was analysed. -/
inductive SyncState where
  | unknown
  | inSync
  | outOfSync
  deriving DecidableEq

/-- A byte range and a line range inside one source file. -/
structure SourceMapping where
  start? : Option Int
  length? : Option Int
  absolute? : Option String
  relative? : Option String
  lines? : Option (List Int)
  startColumn? : Option Int
  endColumn? : Option Int
  /-- The digest of the bytes the mapping pointed at when it was recorded; it may
  be given as `null`. -/
  digest? : Option (Option String)
  extras : List Json.Member

namespace SourceMapping

/-- First byte of the range. -/
def start (m : SourceMapping) : Int := m.start?.getD 0

/-- Number of bytes of the range. -/
def length (m : SourceMapping) : Int := m.length?.getD 0

/-- The file, by its place in the file system. -/
def absolute (m : SourceMapping) : String := m.absolute?.getD ""

/-- The file, by its place in the workspace. -/
def relative (m : SourceMapping) : String := m.relative?.getD ""

/-- The lines of the range, counted from 1. -/
def lines (m : SourceMapping) : List Int := m.lines?.getD []

/-- First column, counted from 1. -/
def startColumn (m : SourceMapping) : Int := m.startColumn?.getD 0

/-- Column after the last, counted from 1. -/
def endColumn (m : SourceMapping) : Int := m.endColumn?.getD 0

/-- The recorded digest, if there is one. -/
def digest (m : SourceMapping) : Option String := m.digest?.getD none

/-- The file's name as it is shown: by its place in the workspace where that is
known. -/
def name (m : SourceMapping) : String :=
  if m.relative = "" then m.absolute else m.relative

/-- Whether the mapping points at a file. -/
def isMapped (m : SourceMapping) : Bool :=
  m.name != ""

/-- The mapping with a digest recorded. -/
def withDigest (m : SourceMapping) (digest : String) : SourceMapping :=
  { m with digest? := some (some digest) }

end SourceMapping

/-- A construct in the sources that takes part in a finding. -/
structure Element where
  name? : Option String
  kind? : Option String
  mapping? : Option (Option SourceMapping)
  details? : Option (Option (List Json.Member))
  extras : List Json.Member

namespace Element

/-- The construct's name. -/
def name (e : Element) : String := e.name?.getD ""

/-- What the construct is: a contract, a function and so on. -/
def kind (e : Element) : String := e.kind?.getD ""

/-- The source mapping, whether or not it points at a file. -/
def sourceMapping (e : Element) : Option SourceMapping := e.mapping?.getD none

/-- The source mapping if it points at a file. -/
def mapping (e : Element) : Option SourceMapping :=
  e.sourceMapping.filter SourceMapping.isMapped

/-- What is known of the construct beyond its name and kind. -/
def details (e : Element) : List Json.Member := (e.details?.getD none).getD []

/-- The element with another source mapping. -/
def withMapping (e : Element) (m : SourceMapping) : Element :=
  { e with mapping? := some (some m) }

end Element

/-- One issue that the analyser reported. -/
structure Finding where
  check? : Option String
  confidence? : Option String
  impact? : Option String
  description? : Option String
  elements? : Option (List Element)
  sync? : Option SyncState
  extras : List Json.Member

namespace Finding

/-- The rule that reported the finding. -/
def check (f : Finding) : String := f.check?.getD ""

/-- How sure the rule is. -/
def confidence (f : Finding) : String := f.confidence?.getD ""

/-- How much is at stake. -/
def impact (f : Finding) : String := f.impact?.getD ""

/-- The report's text. -/
def description (f : Finding) : String := f.description?.getD ""

/-- The constructs that take part. -/
def elements (f : Finding) : List Element := f.elements?.getD []

/-- Whether the sources are still what was analysed. -/
def sync (f : Finding) : SyncState := f.sync?.getD .unknown

/-- The finding with another sync state. -/
def withSync (f : Finding) (state : SyncState) : Finding :=
  { f with sync? := some state }

/-! ## Elements with their places -/

/-- The mappings that point at files, from the element with index `i` on, each
with its element's index. -/
def mappedFrom (i : Nat) : List Element → List (Nat × SourceMapping)
  | [] => []
  | e :: rest =>
    match e.mapping with
    | some m => (i, m) :: mappedFrom (i + 1) rest
    | none => mappedFrom (i + 1) rest

/-- The mappings that point at files, each with its element's index. -/
def mapped (f : Finding) : List (Nat × SourceMapping) :=
  mappedFrom 0 f.elements

/-- The element at an index; none for a negative index. -/
def element? (f : Finding) : Int → Option Element
  | .ofNat i => f.elements[i]?
  | .negSucc _ => none

/-- Whether a member's value is this text. -/
def hasText (members : List Json.Member) (key text : String) : Bool :=
  match Json.lookup key members with
  | some (.str s) => s == text
  | _ => false

/-- The index, from `i` on, of the first element other than `self` with the name
and kind that `parent` gives. -/
def parentFrom (parent : List Json.Member) (self i : Nat) : List Element → Option Nat
  | [] => none
  | e :: rest =>
    if i ≠ self ∧ hasText parent "name" e.name ∧ hasText parent "type" e.kind then some i
    else parentFrom parent self (i + 1) rest

/-- The index of the element that encloses an element. An element carries a copy
of its parent among its details; the copy is found again by name and kind. -/
def parentIndex (f : Finding) (index : Int) : Option Nat :=
  match f.element? index with
  | none => none
  | some e =>
    match Json.lookup "parent" e.details with
    | some (.obj parent) => parentFrom parent index.toNat 0 f.elements
    | _ => none

/-- Where the finding is, for a listing: the file of the first mapping that
points at one, with its first line if it has lines, or a dash. -/
def location (f : Finding) : String :=
  match f.mapped with
  | [] => "-"
  | (_, m) :: _ =>
    match m.lines with
    | [] => m.name
    | line :: _ => m.name ++ ":" ++ toString line

end Finding

namespace SyncState

/-- The word for a state in a listing. -/
def label : SyncState → String
  | inSync => "in sync"
  | outOfSync => "modified"
  | unknown => "unchecked"

end SyncState
end SourceDrift
