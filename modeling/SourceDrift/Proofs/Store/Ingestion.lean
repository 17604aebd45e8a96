/-
What is in memory after findings have been handed in.

Of what is handed in, the documents that do not fit the model are passed over, and of the rest
the first of each canonical form is kept. Recording the digests changes neither a form nor a
state, so both can be told from what was handed in.

The form leaves the state out. A state that comes along with a document or with a finding of
before therefore has no say in what is kept, and is kept with it: nothing sets the states of
fresh findings back, although their digests are new. It stays in memory whatever happens
outside, until the store does something else with the workspace. Only a validation of
everything gives states that do not depend on it.
-/
import SourceDrift.Proofs.Store.Runs
import SourceDrift.Proofs.Sync.Agreement

set_option autoImplicit false

namespace SourceDrift

open Finding

variable {root : Path} {items : List Store.Incoming}

namespace Store

/-! ## The forms -/

/-- **Nothing is lost and nothing is kept twice.** The forms in memory are those of the findings
that were handed in, each at its first place. The findings that are kept and those that are
dropped are two parts of one list, with the one that is kept before those dropped for it; and
what is kept is not parted again. -/
theorem ingestion_parts :
    (∀ {root items kept s s'}, ingest root items s = .ok kept s' →
      (get root s').map canonical = ((readIncoming items).map canonical).eraseDups) ∧
    ∀ fs, (∃ places pairs, Parted fs places pairs (distinct fs) (duplicates fs)) ∧
      distinct (distinct fs) = distinct fs ∧ duplicates (distinct fs) = [] := by
  refine ⟨fun hingest => ?_, fun fs => ⟨parted fs, distinct_distinct fs⟩⟩
  obtain ⟨hkept, -, hget⟩ := replaceAll_eq_ok hingest
  rw [hget, hkept, Sync.map_canonical_capture, map_canonical_distinct]

/-- Two documents of one form, one that does not fit the model, something that is no document,
and a finding. -/
def mixedItems : List Incoming :=
  [.document (.obj [("check", .str "x")]), .document (.int 5), .document (.obj [("check", .int 3)]),
    .document (.obj [("check", .str "x"), ("in_sync", .bool true)]),
    .finding ⟨none, none, some "y", none, none, some .outOfSync, []⟩]

theorem ingestion_parts_mixed :
    ∃ kept s', ingest (Path.ofString "") mixedItems emptySession = .ok kept s' ∧
      (get (Path.ofString "") s').map canonical =
        ["\x7b\"check\":\"x\"\x7d", "\x7b\"impact\":\"y\"\x7d"] := by
  obtain ⟨kept, hingest⟩ : ∃ kept, ingest (Path.ofString "") mixedItems emptySession =
      .ok kept (sessionAfter (ingest (Path.ofString "") mixedItems) emptySession) :=
    eq_ok_of_answer (by decide +kernel)
  refine ⟨kept, _, hingest, ?_⟩
  rw [ingestion_parts.1 hingest]
  decide +kernel

end Store

/-! ## The states that come along -/

/-- The state that a value stands for: a truth value, or the state's own word. -/
def SyncState.named : Json → SyncState
  | .bool true => inSync
  | .bool false => outOfSync
  | .str "in_sync" => inSync
  | .str "out_of_sync" => outOfSync
  | _ => unknown

theorem SyncState.eq_named {v : Json} {state : SyncState} (h : ofJson v = .ok state) :
    state = named v := by
  unfold ofJson at h
  split at h
  all_goals cases h
  all_goals rfl

namespace Store

/-- **The state that comes along with what is handed in**: the finding's own, or the one that a
document gives under `_ext_in_sync` or, without that key, under `in_sync`. -/
def Incoming.state : Incoming → SyncState
  | finding f => f.sync
  | document v =>
    match (v.field? "_ext_in_sync").or (v.field? "in_sync") with
    | some given => SyncState.named given
    | none => .unknown

theorem sync_of_read {item : Incoming} {f : Finding} (h : item.read? = some f) :
    f.sync = item.state := by
  cases item with
  | finding g =>
    cases h
    rfl
  | document v =>
    obtain ⟨members, rfl, hread⟩ := Finding.ofJson_eq_ok.1 (ofJson_of_read h)
    have hkey : Json.lookup (syncKey members) members =
        (Json.lookup "_ext_in_sync" members).or (Json.lookup "in_sync" members) := by
      rw [syncKey, Checked.keyOf]
      cases hfirst : Json.lookup "_ext_in_sync" members with
      | none => rfl
      | some v => exact hfirst
    rw [Incoming.state, Json.field?, Json.field?, ← hkey, Finding.sync]
    rcases Checked.member_eq_ok.1 hread.sync with
      ⟨hnone, hgiven⟩ | ⟨v, state, hsome, hstate, hgiven⟩
    · rw [hnone, hgiven]
      rfl
    · rw [hsome, hgiven]
      exact SyncState.eq_named hstate

/-- Findings among those that are handed in come with the things they were read from. -/
theorem exists_read_of_sublist {fs : List Finding} (h : fs.Sublist (readIncoming items)) :
    ∃ firsts : List Incoming, firsts.Sublist items ∧
      List.Forall₂ (fun item f => item.read? = some f) firsts fs := by
  obtain ⟨reads, hsub, rfl⟩ := List.sublist_filterMap_iff.1 h
  refine ⟨reads.filter fun item => item.read?.isSome, List.filter_sublist.trans hsub, ?_⟩
  clear h hsub
  induction reads with
  | nil => exact .nil
  | cons item rest ih =>
    cases hread : item.read? with
    | none =>
      rw [List.filterMap_cons_none hread, List.filter_cons_of_neg (by rw [hread]; decide)]
      exact ih
    | some f =>
      rw [List.filterMap_cons_some hread, List.filter_cons_of_pos (by rw [hread]; rfl)]
      exact .cons hread ih

/-! ## Until the store does something else -/

/-- Whether a world is one that another can become while a store does nothing with one of its
workspaces. Other stores may do anything, this one may do what it likes with other workspaces,
and the outside may change whatever is not the workspace's key. -/
inductive Undisturbed (name : String) (root : Path) (w : World) : World → Prop
  | refl : Undisturbed name root w w
  | outside {later : World} (h : Host) : Undisturbed name root w later →
      h.key root = later.host.key root → Undisturbed name root w { later with host := h }
  | operate {later : World} (other : String) (op : Operation) : Undisturbed name root w later →
      (other = name → later.host.key op.root ≠ later.host.key root) →
      Undisturbed name root w (later.step other op)

/-- **An operation on something else** leaves what is kept for a workspace. -/
theorem get_step_of_ne {w : World} {name other : String} {op : Operation}
    (hother : other = name → w.host.key op.root ≠ w.host.key root) :
    get root ((w.step other op).session name) = get root (w.session name) := by
  -- No operation takes the process to another directory, so the workspace's key stays.
  have hkey : (w.step other op).host.key root = w.host.key root := by
    rw [show (w.step other op).host = _ from (Operation.does_run op (w.session other)).host.1]
    rfl
  rw [get, get]
  show ((w.step other op).stores name).getKey ((w.step other op).host.key root) = _
  rw [hkey]
  rcases w.getKey_step other name (w.host.key root) op with hsame | ⟨hname, hroot, -⟩
  · exact hsame
  · exact absurd hroot.symm (hother hname.symm)

/-- **What is kept for a workspace stays** as long as the store does nothing with it. -/
theorem Undisturbed.get_eq {w later : World} {name : String} (h : Undisturbed name root w later) :
    get root (later.session name) = get root (w.session name) := by
  induction h with
  | refl => rfl
  | outside h _ hkey ih =>
    rw [← ih, get, get]
    exact congrArg _ hkey
  | operate other op _ hother ih => rw [get_step_of_ne hother, ih]

/-! ## The states in memory -/

/-- Recording digests leaves the states as they are. -/
theorem map_sync_capture (src : Sync.Sources) (root : Path) (onlyMissing : Bool)
    (fs : List Finding) :
    (Sync.capture src root onlyMissing fs).1.map Finding.sync = fs.map Finding.sync :=
  Checked.map_eq_of_forall₂ (fun _ _ _ h => h.sync)
    (Sync.capture_redigested src root onlyMissing fs)

/-- A validation of everything does not look at the states before it. -/
theorem sync_validate_blank (src : Sync.Sources) (root : Path) (fs : List Finding) :
    (Sync.validate src root none fs).1.map Finding.sync =
      (Sync.validate src root none (fs.map fun f => f.withSync .unknown)).1.map Finding.sync := by
  refine Sync.sync_validate_congr ?_
  rw [List.forall₂_map_right_iff, List.forall₂_same]
  intro f _
  exact List.forall₂_same.2 fun _ _ => ⟨rfl, rfl, rfl, rfl⟩

/-- **The states in memory are those that came along.** After an ingestion, and for as long as the
store does nothing else with the workspace, a finding has the state that came along with the
first thing of its form. So all are unknown exactly if no such thing brought a state. A
validation of everything then gives the states that it would give if all had been unknown. -/
theorem states_come_along {w later : World} {name : String} {kept : List Finding} {s' : Session}
    (hingest : ingest root items (w.session name) = .ok kept s')
    (hlater : Undisturbed name root (w.step name (.ingest root items)) later) :
    (∃ firsts : List Incoming, firsts.Sublist items ∧
      List.Forall₂ (fun item f => item.read? = some f) firsts (distinct (readIncoming items)) ∧
      (get root (later.session name)).map Finding.sync = firsts.map Incoming.state ∧
      ((∀ f ∈ get root (later.session name), f.sync = .unknown) ↔
        ∀ item ∈ firsts, item.state = .unknown)) ∧
    (get root (sessionAfter (validate root none) (later.session name))).map Finding.sync =
      (Sync.validate (sources later.host) root none
        ((get root (later.session name)).map fun f => f.withSync .unknown)).1.map Finding.sync := by
  constructor
  · obtain ⟨firsts, hfirsts, hread⟩ :=
      exists_read_of_sublist (distinct_sublist (readIncoming items))
    have hcame : (distinct (readIncoming items)).map Finding.sync = firsts.map Incoming.state :=
      Checked.map_eq_of_forall₂ (fun _ _ _ h => sync_of_read h) hread
    have hstates : (get root (later.session name)).map Finding.sync =
        firsts.map Incoming.state := by
      -- Nothing is done to what was kept but that digests are recorded in it.
      obtain ⟨hkept, -, hget⟩ := replaceAll_eq_ok hingest
      have hstep : (w.step name (.ingest root items)).session name = s' :=
        (w.session_step_self name _).trans (sessionAfter_of_ok hingest)
      rw [hlater.get_eq, hstep, hget, hkept, map_sync_capture, hcame]
    have hunknown : (∀ f ∈ get root (later.session name), f.sync = .unknown) ↔
        ∀ state ∈ (get root (later.session name)).map Finding.sync, state = .unknown := by
      rw [List.forall_mem_map]
    refine ⟨firsts, hfirsts, hread, hstates, ?_⟩
    rw [hunknown, hstates, List.forall_mem_map]
  · rw [get_sessionAfter_validate, sync_validate_blank]
    rfl

/-- Findings of which two bring a state along, one of them as a document of the form that the
next has as well. -/
def carryingItems : List Incoming :=
  [.document (.obj [("check", .str "x"), ("in_sync", .bool true)]),
    .document (.obj [("check", .str "x")]),
    .finding ⟨none, none, some "y", none, none, some .outOfSync, []⟩]

/-- The world after one store has been handed these, another has loaded them and all files are
gone. -/
def emptiedWorld : World :=
  { (freshWorld.step "first" (.ingest (Path.ofString "") carryingItems)).step "second"
      (.load (Path.ofString "")) with host := emptySession.host }

theorem states_come_along_emptied :
    ∃ firsts : List Incoming, firsts.Sublist carryingItems ∧
      (get (Path.ofString "") (emptiedWorld.session "first")).map Finding.sync =
        firsts.map Incoming.state ∧
      firsts.map Incoming.state = [.inSync, .outOfSync] := by
  obtain ⟨kept, hingest⟩ : ∃ kept, ingest (Path.ofString "") carryingItems
      (freshWorld.session "first") = .ok kept
        (sessionAfter (ingest (Path.ofString "") carryingItems)
        (freshWorld.session "first")) :=
    eq_ok_of_answer (by decide +kernel)
  have hlater : Undisturbed "first" (Path.ofString "")
      (freshWorld.step "first" (.ingest (Path.ofString "") carryingItems)) emptiedWorld := by
    refine .outside _ (.operate "second" _ .refl ?_) ?_
    · intro hname
      exact absurd hname (by decide)
    · decide +kernel
  obtain ⟨⟨firsts, hfirsts, -, hstates, -⟩, -⟩ := states_come_along hingest hlater
  refine ⟨firsts, hfirsts, hstates, ?_⟩
  rw [← hstates]
  decide +kernel

end Store
end SourceDrift
