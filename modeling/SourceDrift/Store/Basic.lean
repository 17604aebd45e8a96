/-
Findings by workspace, in memory and on disk.

A store keeps the findings of each workspace under the comparable form of its
root, in the order in which workspaces were first stored. What changes findings
writes them to disk as well. Memory is changed before the disk is, so a failure to
write leaves the new findings in memory and the old ones on disk; only loading
waits for the write that it may need.
-/
import SourceDrift.Finding.Diagnostics
import SourceDrift.Finding.Duplicates
import SourceDrift.Store.Repository
import SourceDrift.Sync.Check

set_option autoImplicit false

namespace SourceDrift

/-- The findings of workspaces, and how their ranges are shown. -/
structure Store where
  collapse : CollapsePolicy
  collections : List (String × List Finding)

/-- A store and the world it works in. -/
structure Session where
  store : Store
  host : Host

/-- What changes a store and its world and may fail. A failing action keeps what
it has done up to then. -/
abbrev StoreAction (α : Type) := EStateM Failure Session α

namespace Store

/-- A store with nothing in it. -/
def empty (collapse : CollapsePolicy) : Store := ⟨collapse, []⟩

/-! ## Memory -/

/-- The findings kept under a key, if any are. -/
def lookup (key : String) : List (String × List Finding) → Option (List Finding)
  | [] => none
  | (k, fs) :: rest => if k = key then some fs else lookup key rest

/-- Keeps findings under a key: in its place if it is there, at the end if not. -/
def insert (key : String) (fs : List Finding) :
    List (String × List Finding) → List (String × List Finding)
  | [] => [(key, fs)]
  | (k, gs) :: rest => if k = key then (k, fs) :: rest else (k, gs) :: insert key fs rest

/-- Keeps findings for a workspace. -/
def put (s : Store) (key : String) (fs : List Finding) : Store :=
  { s with collections := insert key fs s.collections }

/-- Forgets a workspace. -/
def drop (s : Store) (key : String) : Store :=
  { s with collections := s.collections.filter fun c => c.1 != key }

/-- The findings kept under a key; none if the workspace is not known. -/
def getKey (s : Store) (key : String) : List Finding :=
  (lookup key s.collections).getD []

/-- The workspaces that are known. -/
def workspaces (s : Store) : List String :=
  s.collections.map (·.1)

/-! ## Actions -/

variable {α : Type}

/-- An action on the world alone. -/
def onHost (x : Action α) : StoreAction α := fun s =>
  match x s.host with
  | .ok a host => .ok a { s with host := host }
  | .error e host => .error e { s with host := host }

/-- A change of the store alone. -/
def modifyStore (f : Store → Store) : StoreAction Unit := fun s =>
  .ok () { s with store := f s.store }

/-- What a pass over the sources sees of the world. -/
def sources (h : Host) : Sync.Sources where
  read p := (h.files.readFile h.cwd p).toOption
  key p := h.key p

/-- **The findings of a workspace.** -/
def get (root : Path) (s : Session) : List Finding :=
  s.store.getKey (s.host.key root)

/-- The stored findings of a workspace; none if they cannot be used. -/
def loadStored (root : Path) : StoreAction (List Finding) := fun s =>
  match onHost (Repository.load root) s with
  | .ok fs s => .ok (fs.getD []) s
  | .error (.corruptFindings _) s => .ok [] s
  | .error e s => .error e s

/-- Whether a finding points at a file without a digest for it. -/
def lacksDigest (f : Finding) : Bool :=
  f.mapped.any fun (_, m) => m.digest.isNone

/-- Findings with the digests that they lack, as far as their files can be read. If
any digest is added the findings are stored. -/
def backfill (root : Path) (fs : List Finding) : StoreAction (List Finding) := do
  if fs.any lacksDigest then
    let s ← MonadState.get
    let (fs, count) := Sync.capture (sources s.host) root true fs
    if count ≠ 0 then onHost (Repository.save root fs)
    pure fs
  else pure fs

/-- **Loads the stored findings of a workspace.** Findings that cannot be used count
as none. -/
def load (root : Path) : StoreAction Unit := do
  let fs ← backfill root (← loadStored root)
  let s ← MonadState.get
  modifyStore (·.put (s.host.key root) fs)

/-- What is handed to a store: a document, or a finding that was read before. -/
inductive Incoming where
  | document (v : Json)
  | finding (f : Finding)

/-- The finding that is handed in, if it is one. -/
def Incoming.read? : Incoming → Option Finding
  | document v => (Finding.ofJson v).toOption
  | finding f => some f

/-- The findings that are handed in; documents that do not fit the model are passed
over. -/
def readIncoming (items : List Incoming) : List Finding :=
  items.filterMap Incoming.read?

/-- The findings that a list of documents holds. -/
def readItems (items : List Json) : List Finding :=
  readIncoming (items.map .document)

/-- **Replaces the findings of a workspace** by others: without duplicates, their
digests recorded. -/
def replaceAll (root : Path) (fs : List Finding) : StoreAction (List Finding) := do
  -- Duplicates are told by their canonical forms, so these are made first.
  if let some e := fs.findSome? Finding.formFailure? then throw e
  let s ← MonadState.get
  let (fs, _) := Sync.capture (sources s.host) root false (Finding.distinct fs)
  -- Memory first: a failing write leaves the new findings in it.
  modifyStore (·.put (s.host.key root) fs)
  onHost (Repository.save root fs)
  pure fs

/-- **Replaces the findings of a workspace** by what is handed in, such as the documents
of a fresh analysis. -/
def ingest (root : Path) (items : List Incoming) : StoreAction (List Finding) :=
  replaceAll root (readIncoming items)

/-- **Forgets a workspace**, in memory and on disk. -/
def clear (root : Path) : StoreAction Unit := do
  let s ← MonadState.get
  modifyStore (·.drop (s.host.key root))
  onHost (Repository.delete root)

/-- **Validates the findings of a workspace** against its sources and stores the
outcome. A workspace without findings is left alone. -/
def validate (root : Path) (changed : Option Path) : StoreAction Sync.Report := do
  let s ← MonadState.get
  let key := s.host.key root
  match s.store.getKey key with
  | [] => pure .empty
  | fs =>
    let (fs, report) := Sync.validate (sources s.host) root changed fs
    modifyStore (·.put key fs)
    -- With nothing checked, nothing has changed that a write would keep.
    if report.checked ≠ 0 then onHost (Repository.save root fs)
    pure report

/-- The findings of a workspace whose rules are not hidden. -/
def visible (root : Path) (hidden : List String) (s : Session) : List Finding :=
  (get root s).filter fun f => !hidden.contains f.check

end Store

/-! ## Opening a finding -/

/-- Where an editor opens a finding. -/
structure Target where
  path : Path
  range : TextRange
  element : Int
  deriving DecidableEq

namespace Finding

/-- Where an editor opens an element of a finding: nowhere if there is no such
element, if it points at no file, or if the sources are known to have changed. -/
def target? (collapse : CollapsePolicy) (root : Path) (f : Finding) (element : Int) :
    Option Target :=
  match (f.element? element).bind Element.mapping with
  | none => none
  | some m =>
    if f.sync = .outOfSync then none
    else some ⟨m.file root, f.displayRange collapse element, element⟩

end Finding
end SourceDrift
