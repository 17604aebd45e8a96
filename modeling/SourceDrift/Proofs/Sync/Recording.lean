/-
What a recording writes, and what it leaves.

In terms of the world alone: a digest is due for a mapping if one is asked for and the file
can be read (`Due`). A recording writes those that are due and counts them; everything else of
the findings stays. That includes the digests of files that cannot be read. A recording of
everything passes such a file over, where it could have dropped what was recorded for it once, so
it leaves digests without a file exactly where it has found some.
-/
import SourceDrift.Proofs.Sync.Exact

set_option autoImplicit false

namespace SourceDrift.Sync

variable {h : Host} {root : Path} {onlyMissing : Bool}

/-! ## The digests that are due -/

/-- Whether a mapping's file holds these bytes, and a recording has to write their digest. -/
def Due (h : Host) (root : Path) (onlyMissing : Bool) (m : SourceMapping) (bytes : List UInt8) :
    Prop :=
  (onlyMissing = true → m.digest = none) ∧ h.files.readFile h.cwd (m.file root) = .ok bytes

/-- What a recording makes of an element. -/
structure RecordsElement (h : Host) (root : Path) (onlyMissing : Bool) (e e' : Element) : Prop where
  due : ∀ m bytes, e.mapping = some m → Due h root onlyMissing m bytes →
    e' = e.withMapping
      (m.withDigest (Md5.digest (Digest.slice bytes m.start (m.start + m.length))))
  notDue : (∀ m bytes, e.mapping = some m → ¬Due h root onlyMissing m bytes) → e' = e

/-- What a recording makes of a finding. -/
structure RecordsFinding (h : Host) (root : Path) (onlyMissing : Bool) (f g : Finding) : Prop where
  elements : Option.Rel (List.Forall₂ (RecordsElement h root onlyMissing)) f.elements? g.elements?
  onlyElements : g = { f with elements? := g.elements? }

theorem isRecorded_iff {m : SourceMapping} :
    isRecorded (Store.sources h) root onlyMissing m = true ↔
    ∃ bytes, Due h root onlyMissing m bytes := by
  have hread : ∀ bytes, h.files.readFile h.cwd (m.file root) = .ok bytes ↔
      (Store.sources h).read (m.file root) = some bytes := fun bytes => (read_sources ..).symm
  unfold isRecorded Due
  simp only [hread, exists_and_left, ← Option.isSome_iff_exists, Bool.and_eq_true,
    Bool.not_eq_true',
    Bool.and_eq_false_imp, Option.isSome_eq_false_iff, Option.isNone_iff_eq_none]

instance (h : Host) (root : Path) (onlyMissing : Bool) (m : SourceMapping) :
    Decidable (∃ bytes, Due h root onlyMissing m bytes) :=
  decidable_of_iff _ isRecorded_iff

theorem recordsElement_recordElement (h : Host) (root : Path) (onlyMissing : Bool) (e : Element) :
    RecordsElement h root onlyMissing e (recordElement (Store.sources h) root onlyMissing e) := by
  unfold recordElement
  cases hm : e.mapping with
  | none =>
    refine ⟨fun m bytes hm' _ => ?_, fun _ => rfl⟩
    rw [hm] at hm'
    cases hm'
  | some m =>
    dsimp only
    unfold recordMapping
    refine ⟨fun m' bytes hm' hdue => ?_, fun hnot => ?_⟩
    · obtain rfl := Option.some.inj (hm.symm.trans hm')
      -- The two tests of the definition are those of `Due`.
      have hasked : ¬(onlyMissing && m.digest.isSome) = true := by
        rw [Bool.and_eq_true, not_and]
        intro hmissing
        rw [hdue.1 hmissing]
        decide
      rw [if_neg hasked, read_sources.2 hdue.2]
      rfl
    · split
      · exact withMapping_self hm
      · next hasked =>
        cases hread : (Store.sources h).read (m.file root) with
        | none => exact withMapping_self hm
        | some bytes =>
          refine absurd ⟨fun hmissing => ?_, read_sources.1 hread⟩ (hnot m bytes hm)
          rw [hmissing, Bool.true_and, Option.isSome_iff_ne_none, not_not] at hasked
          exact hasked

theorem recordsFinding_recordFinding (h : Host) (root : Path) (onlyMissing : Bool) (f : Finding) :
    RecordsFinding h root onlyMissing f (recordFinding (Store.sources h) root onlyMissing f) := by
  refine ⟨?_, rfl⟩
  rw [recordFinding]
  cases f.elements? with
  | none => exact .none
  | some es =>
    refine .some ?_
    rw [List.forall₂_map_right_iff, List.forall₂_same]
    exact fun e _ => recordsElement_recordElement h root onlyMissing e

/-- **A recording writes the digests that are due**, answers how many these are, and changes
nothing else. Names in the list with one key are taken to read alike. -/
theorem recording_exact (onlyMissing : Bool) {fs : List Finding}
    (hread : (Store.sources h).Consistent (files root fs)) :
    List.Forall₂ (RecordsFinding h root onlyMissing) fs
        (capture (Store.sources h) root onlyMissing fs).1 ∧
      (capture (Store.sources h) root onlyMissing fs).2 =
        (fs.flatMap mappings).countP fun m => ∃ bytes, Due h root onlyMissing m bytes := by
  constructor
  · rw [capture_eq_map onlyMissing hread, List.forall₂_map_right_iff, List.forall₂_same]
    exact fun f _ => recordsFinding_recordFinding h root onlyMissing f
  · rw [count_capture onlyMissing hread]
    congr 1
    funext m
    rw [Bool.eq_iff_iff, decide_eq_true_iff]
    exact isRecorded_iff

/-! ## Digests without a file -/

/-- Whether every digest among the findings is that of a file which can be read. -/
def NoneStale (h : Host) (root : Path) (fs : List Finding) : Prop :=
  ∀ f ∈ fs, ∀ m ∈ mappings f, m.digest ≠ none →
    ∃ bytes, h.files.readFile h.cwd (m.file root) = .ok bytes

/-- A recording of everything does not add a digest without a file, nor take one away. -/
theorem stale_recordMapping (m : SourceMapping)
    (hnot : ¬∃ bytes, h.files.readFile h.cwd (m.file root) = .ok bytes) :
    recordMapping (Store.sources h) root false m = m := by
  unfold recordMapping
  cases hread : (Store.sources h).read (m.file root) with
  | none => simp
  | some bytes => exact absurd ⟨bytes, read_sources.1 hread⟩ hnot

theorem noneStale_map_recordFinding (fs : List Finding) :
    NoneStale h root (fs.map (recordFinding (Store.sources h) root false)) ↔
      NoneStale h root fs := by
  unfold NoneStale
  simp only [List.forall_mem_map, mappings_recordFinding, file_recordMapping]
  refine forall₂_congr fun f _ => forall₂_congr fun m _ => ?_
  by_cases hread : ∃ bytes, h.files.readFile h.cwd (m.file root) = .ok bytes
  · simp only [hread, implies_true]
  · rw [stale_recordMapping m hread]

/-- **A recording of everything gives each mapping whose file can be read the digest of what it
points at now**, counts these, and changes nothing else. A digest that was there for a file which
cannot be read is among what it does not change: none is left behind exactly if there was none. -/
theorem full_recording_exact (h : Host) (root : Path) (fs : List Finding)
    (hread : (Store.sources h).Consistent (files root fs)) :
    List.Forall₂ (RecordsFinding h root false) fs (capture (Store.sources h) root false fs).1 ∧
      (capture (Store.sources h) root false fs).2 = (fs.flatMap mappings).countP (fun m =>
        (h.files.readFile h.cwd (m.file root)).toOption.isSome) ∧
      (NoneStale h root (capture (Store.sources h) root false fs).1 ↔ NoneStale h root fs) := by
  obtain ⟨hall, -⟩ := recording_exact false hread
  refine ⟨hall, ?_, ?_⟩
  · rw [count_capture false hread]
    rfl
  · rw [capture_eq_map false hread]
    exact noneStale_map_recordFinding fs

/-- There is no file `b.sol`. The finding that points at it has a digest from another time and
keeps it, beside one whose digest is brought up to date. -/
theorem full_recording_exact_beside_missing :
    let h := worldOf [(["w", "a.sol"], .file [97])]
    let fs := [pointing "a.sol" (some "00"), pointing "b.sol" (some "00")]
    let after := capture (Store.sources h) ⟨"", []⟩ false fs
    (Store.sources h).Consistent (files ⟨"", []⟩ fs) ∧
      (after.1.flatMap mappings).map (·.digest) =
        [some (Digest.ofSlice [97] 0 1), some "00"] ∧ after.2 = 1 ∧
      List.Forall₂ (RecordsFinding h ⟨"", []⟩ false) fs after.1 ∧
      after.2 = (fs.flatMap mappings).countP (fun m =>
        (h.files.readFile h.cwd (m.file ⟨"", []⟩)).toOption.isSome) ∧
      (NoneStale h ⟨"", []⟩ after.1 ↔ NoneStale h ⟨"", []⟩ fs) := by
  intro h fs after
  have hread : (Store.sources h).Consistent (files ⟨"", []⟩ fs) := by decide +kernel
  have hdigests : (after.1.flatMap mappings).map (·.digest) =
      [some (Digest.ofSlice [97] 0 1), some "00"] ∧ after.2 = 1 := by decide +kernel
  exact ⟨hread, hdigests.1, hdigests.2, full_recording_exact h ⟨"", []⟩ fs hread⟩

end SourceDrift.Sync
