/-
Source drift: recording what the sources were, and telling whether they still are.

Each mapping that points at a file keeps the digest of the bytes that it pointed
at. `capture` records digests, `validate` compares them with the sources of now. A
pass over the findings reads each file once and keeps what it read under the
comparable form of the path, so that a file is seen in one state throughout the
pass however its name is spelled.

Nothing here reads a file by itself: what can be read is given as a function, and
a pass threads its cache from finding to finding.
-/
import SourceDrift.Digest.Slice
import SourceDrift.Sync.Source

set_option autoImplicit false

namespace SourceDrift.Sync

/-! ## Reading sources in a pass -/

/-- What a pass can see: the content of a file, if it can be read, and the
comparable form of a path. -/
structure Sources where
  read : Path → Option (List UInt8)
  key : Path → String

/-- What a pass has read so far. A file that could not be read is remembered too. -/
abbrev Cache := List (String × Option (List UInt8))

/-- What the cache holds under a key. -/
def Cache.lookup (key : String) : Cache → Option (Option (List UInt8))
  | [] => none
  | (k, content) :: rest => if k = key then some content else Cache.lookup key rest

/-- The content of a file, read only if nothing is cached for it. -/
def fetch (src : Sources) (cache : Cache) (p : Path) : Option (List UInt8) × Cache :=
  match Cache.lookup (src.key p) cache with
  | some content => (content, cache)
  | none => (src.read p, (src.key p, src.read p) :: cache)

/-! ## Recording digests -/

/-- Records the digest of a mapping: the mapping after it, how many digests were
written, and the cache. A file that cannot be read leaves the mapping alone. -/
def captureMapping (src : Sources) (root : Path) (onlyMissing : Bool) (cache : Cache)
    (m : SourceMapping) : SourceMapping × Nat × Cache :=
  if onlyMissing && m.digest.isSome then (m, 0, cache)
  else
    match fetch src cache (m.file root) with
    | (some bytes, cache) => (m.withDigest (m.digestIn bytes), 1, cache)
    | (none, cache) => (m, 0, cache)

/-- Records the digest of an element, if it points at a file. -/
def captureElement (src : Sources) (root : Path) (onlyMissing : Bool) (cache : Cache)
    (e : Element) : Element × Nat × Cache :=
  match e.mapping with
  | none => (e, 0, cache)
  | some m =>
    let (m, count, cache) := captureMapping src root onlyMissing cache m
    (if count = 0 then e else e.withMapping m, count, cache)

/-- Records the digests of elements, in order. -/
def captureElements (src : Sources) (root : Path) (onlyMissing : Bool) :
    Cache → List Element → List Element × Nat × Cache
  | cache, [] => ([], 0, cache)
  | cache, e :: rest =>
    let (e, count, cache) := captureElement src root onlyMissing cache e
    let (rest, more, cache) := captureElements src root onlyMissing cache rest
    (e :: rest, count + more, cache)

/-- Records the digests of a finding. -/
def captureFinding (src : Sources) (root : Path) (onlyMissing : Bool) (cache : Cache)
    (f : Finding) : Finding × Nat × Cache :=
  match f.elements? with
  | none => (f, 0, cache)
  | some elements =>
    let (elements, count, cache) := captureElements src root onlyMissing cache elements
    ({ f with elements? := some elements }, count, cache)

/-- Records the digests of findings, in order. -/
def captureFindings (src : Sources) (root : Path) (onlyMissing : Bool) :
    Cache → List Finding → List Finding × Nat × Cache
  | cache, [] => ([], 0, cache)
  | cache, f :: rest =>
    let (f, count, cache) := captureFinding src root onlyMissing cache f
    let (rest, more, cache) := captureFindings src root onlyMissing cache rest
    (f :: rest, count + more, cache)

/-- **Records the digests of all findings**, or only those that are missing, and
answers how many were written. -/
def capture (src : Sources) (root : Path) (onlyMissing : Bool) (fs : List Finding) :
    List Finding × Nat :=
  let (fs, count, _) := captureFindings src root onlyMissing [] fs
  (fs, count)

/-! ## Comparing digests -/

/-- Whether the files of mappings are all unchanged. The first that is not ends
the comparison. -/
def unchanged (src : Sources) : Cache → List (SourceMapping × Path) → Bool × Cache
  | cache, [] => (true, cache)
  | cache, (m, path) :: rest =>
    match fetch src cache path with
    | (some bytes, cache) =>
      -- A mapping without a digest is never unchanged.
      if m.digest = some (m.digestIn bytes) then unchanged src cache rest else (false, cache)
    | (none, cache) => (false, cache)

/-- What a validation found. -/
structure Report where
  checked : Nat
  inSync : Nat
  outOfSync : Nat
  skipped : Nat
  deriving DecidableEq

namespace Report

/-- The report of a validation of nothing. -/
def empty : Report := ⟨0, 0, 0, 0⟩

/-- The report with one more finding that was checked. -/
def addChecked (r : Report) (isInSync : Bool) : Report :=
  if isInSync then { r with checked := r.checked + 1, inSync := r.inSync + 1 }
  else { r with checked := r.checked + 1, outOfSync := r.outOfSync + 1 }

/-- The report with one more finding that was passed over. -/
def addSkipped (r : Report) : Report :=
  { r with skipped := r.skipped + 1 }

end Report

/-- The mappings of a finding that point at files, each with its file. -/
def targets (root : Path) (f : Finding) : List (SourceMapping × Path) :=
  f.mapped.map fun (_, m) => (m, m.file root)

/-- Whether a finding is concerned by a change to a file. One that points nowhere
is always concerned: nothing of it can drift, whichever file changed. -/
def isConcerned (src : Sources) (root : Path) (changed : Option String) (f : Finding) : Bool :=
  match changed with
  | none => true
  | some key =>
    (targets root f).isEmpty || (targets root f).any fun (_, path) => src.key path == key

/-- Validates findings in order, with the report so far. -/
def validateFindings (src : Sources) (root : Path) (changed : Option String) :
    Cache → Report → List Finding → List Finding × Report
  | _, report, [] => ([], report)
  | cache, report, f :: rest =>
    if isConcerned src root changed f then
      let (same, cache) := unchanged src cache (targets root f)
      let state := if same then SyncState.inSync else SyncState.outOfSync
      let (rest, report) := validateFindings src root changed cache (report.addChecked same) rest
      (f.withSync state :: rest, report)
    else
      let (rest, report) := validateFindings src root changed cache report.addSkipped rest
      (f :: rest, report)

/-- **Validates findings**: each one concerned is in sync exactly when every file
it points at can be read and still has the recorded digest. With `changed` only
the findings that point at that file are concerned. -/
def validate (src : Sources) (root : Path) (changed : Option Path) (fs : List Finding) :
    List Finding × Report :=
  validateFindings src root (changed.map src.key) [] .empty fs

end SourceDrift.Sync
