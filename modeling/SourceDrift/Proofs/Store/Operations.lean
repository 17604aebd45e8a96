/-
What the operations of a store do.

One specification each for replacing, validating and loading: what is kept in memory, what has
been saved, and that the world's directory is where it was, so that a workspace's key is
what it was. Validating keeps its outcome even where it cannot be written; loading keeps what
is stored, with the digests recorded that were missing.
-/
import SourceDrift.Proofs.Finding.Distinct
import SourceDrift.Proofs.Host.Contents
import SourceDrift.Proofs.Sync.Redigest
import SourceDrift.Store.Basic

set_option autoImplicit false

namespace SourceDrift.Store

/-! ## Memory -/

theorem lookup_insert_self (key : String) (fs : List Finding)
    (collections : List (String × List Finding)) :
    lookup key (insert key fs collections) = some fs := by
  induction collections with
  | nil => exact if_pos rfl
  | cons c rest ih =>
    obtain ⟨k, gs⟩ := c
    rw [insert]
    by_cases hk : k = key
    · rw [if_pos hk, lookup, if_pos hk]
    · rw [if_neg hk, lookup, if_neg hk, ih]

theorem getKey_put (s : Store) (key : String) (fs : List Finding) :
    (s.put key fs).getKey key = fs := by
  rw [getKey, put, lookup_insert_self, Option.getD_some]

theorem lookup_insert_of_ne {key other : String} (hne : other ≠ key) (fs : List Finding)
    (collections : List (String × List Finding)) :
    lookup other (insert key fs collections) = lookup other collections := by
  induction collections with
  | nil => exact if_neg (Ne.symm hne)
  | cons c rest ih =>
    obtain ⟨k, gs⟩ := c
    rw [insert]
    by_cases hk : k = key
    · rw [if_pos hk, lookup, lookup, hk, if_neg (Ne.symm hne), if_neg (Ne.symm hne)]
    · rw [if_neg hk, lookup, lookup, ih]

theorem getKey_put_of_ne {key other : String} (hne : other ≠ key) (s : Store) (fs : List Finding) :
    (s.put key fs).getKey other = s.getKey other := by
  rw [getKey, getKey, put, lookup_insert_of_ne hne]

/-- Forgetting a workspace leaves the others as they were. -/
theorem getKey_drop (s : Store) (key other : String) :
    (s.drop key).getKey other = if other = key then [] else s.getKey other := by
  -- A key is not assumed to occur once: whatever stands under it goes.
  have hlookup : ∀ collections : List (String × List Finding),
      lookup other (collections.filter fun c => c.1 != key) =
        if other = key then none else lookup other collections := by
    intro collections
    induction collections with
    | nil => exact (ite_self none).symm
    | cons c rest ih =>
      obtain ⟨k, gs⟩ := c
      rw [List.filter_cons, lookup]
      by_cases hother : other = key
      · rw [if_pos hother] at ih ⊢
        by_cases hk : k = key
        · simp only [hk, bne_self_eq_false, Bool.false_eq_true, if_false, ih]
        · have hne : k ≠ other := fun heq => hk (heq.trans hother)
          simp only [bne_iff_ne, ne_eq, hk, not_false_eq_true, if_true, lookup, if_neg hne, ih]
      · rw [if_neg hother] at ih ⊢
        by_cases hk : k = key
        · have hne : k ≠ other := fun heq => hother (heq.symm.trans hk)
          simp only [hk, bne_self_eq_false, Bool.false_eq_true, if_false, ih, if_neg (hk ▸ hne)]
        · simp only [bne_iff_ne, ne_eq, hk, not_false_eq_true, if_true, lookup, ih]
  rw [getKey, drop, hlookup]
  split
  · rfl
  · rfl

/-! ## Saving from a store -/

theorem onHost_eq_ok {α : Type} {x : Action α} {s s' : Session} {a : α} :
    onHost x s = .ok a s' ↔ x s.host = .ok a s'.host ∧ s'.store = s.store := by
  obtain ⟨store', host'⟩ := s'
  unfold onHost
  cases x s.host with
  | ok b host =>
    constructor
    · intro h
      cases h
      exact ⟨rfl, rfl⟩
    · rintro ⟨h, rfl⟩
      cases h
      rfl
  | error e host =>
    constructor
    · intro h
      cases h
    · rintro ⟨h, -⟩
      cases h

theorem get_eq_ok (s : Session) : (MonadState.get : StoreAction Session) s = .ok s s := rfl

theorem modifyStore_eq_ok (f : Store → Store) (s : Session) :
    modifyStore f s = .ok () { s with store := f s.store } := rfl

theorem cwd_of_save {root : Path} {fs : List Finding} {h h' : Host} {u : Unit}
    (hsave : Repository.save root fs h = .ok u h') : h'.cwd = h.cwd := by
  rw [← (Repository.filesOnly_save root fs).cwd h, Action.after_of_ok hsave]

theorem key_of_cwd {h h' : Host} (hcwd : h'.cwd = h.cwd) (p : Path) : h'.key p = h.key p := by
  rw [Host.key, Host.key, hcwd]

/-! ## Running -/

/-- The session that an action leaves, whether or not it succeeds. -/
def sessionAfter {α : Type} (x : StoreAction α) (s : Session) : Session :=
  match x s with
  | .ok _ s' => s'
  | .error _ s' => s'

theorem sessionAfter_of_ok {α : Type} {x : StoreAction α} {s s' : Session} {a : α}
    (h : x s = .ok a s') : sessionAfter x s = s' := by
  rw [sessionAfter, h]

theorem sessionAfter_of_error {α : Type} {x : StoreAction α} {s s' : Session} {e : Failure}
    (h : x s = .error e s') : sessionAfter x s = s' := by
  rw [sessionAfter, h]

theorem sessionAfter_bind_of_ok {α β : Type} {x : StoreAction α} {f : α → StoreAction β}
    {s s' : Session} {a : α} (h : x s = .ok a s') :
    sessionAfter (x >>= f) s = sessionAfter (f a) s' := by
  rw [sessionAfter, sessionAfter, bind_of_ok h]

theorem sessionAfter_bind_of_error {α β : Type} {x : StoreAction α} {f : α → StoreAction β}
    {s s' : Session} {e : Failure} (h : x s = .error e s') : sessionAfter (x >>= f) s = s' := by
  rw [sessionAfter, bind_of_error h]

theorem sessionAfter_onHost {α : Type} (x : Action α) (s : Session) :
    sessionAfter (onHost x) s = { s with host := x.after s.host } := by
  unfold sessionAfter onHost Action.after
  cases x s.host <;> rfl

/-- What an action answers, if it succeeds. -/
def answer? {α : Type} (x : StoreAction α) (s : Session) : Option α :=
  match x s with
  | .ok a _ => some a
  | .error _ _ => none

theorem eq_ok_of_answer {α : Type} {x : StoreAction α} {s : Session} (h : (answer? x s).isSome) :
    ∃ a, x s = .ok a (sessionAfter x s) := by
  unfold answer? at h
  unfold sessionAfter
  cases hx : x s with
  | ok a s' => exact ⟨a, rfl⟩
  | error e s' =>
    rw [hx] at h
    cases h

theorem ofJson_of_read {v : Json} {f : Finding} (hf : (Incoming.document v).read? = some f) :
    Finding.ofJson v = .ok f :=
  eq_ok_of_toOption hf

/-- What is left without duplicates has been handed in. -/
theorem mem_handedIn {raw : List Incoming} {f : Finding}
    (hf : f ∈ Finding.distinct (readIncoming raw)) : ∃ item ∈ raw, item.read? = some f :=
  List.mem_filterMap.1 ((Finding.distinct_sublist _).subset hf)

/-! ## The operations -/

/-- A write with an answer behind it: memory stays, and the world is the one that the write
leaves. -/
theorem onHost_bind_pure {α : Type} (x : Action Unit) (b : α) (s : Session) :
    (onHost x >>= fun _ => pure b : StoreAction α) s =
      match x s.host with
      | .ok _ h => .ok b { s with host := h }
      | .error e h => .error e { s with host := h } := by
  cases hx : x s.host with
  | ok a h =>
    have hrun : onHost x s = .ok a { s with host := h } := onHost_eq_ok.2 ⟨hx, rfl⟩
    rw [bind_of_ok hrun]
    rfl
  | error e h =>
    have hrun : onHost x s = .error e { s with host := h } := by rw [onHost, hx]
    rw [bind_of_error hrun]

/-- **Replacing, in one step**: what is handed in without duplicates, with its digests recorded, is
kept and then written. -/
theorem replaceAll_eq (root : Path) (fs : List Finding) (s : Session) :
    replaceAll root fs s =
      match fs.findSome? Finding.formFailure? with
      | some e => .error e s
      | none =>
        let kept := (Sync.capture (sources s.host) root false (Finding.distinct fs)).1
        match Repository.save root kept s.host with
        | .ok _ h => .ok kept ⟨s.store.put (s.host.key root) kept, h⟩
        | .error e h => .error e ⟨s.store.put (s.host.key root) kept, h⟩ := by
  unfold replaceAll
  cases fs.findSome? Finding.formFailure? with
  | some e => rfl
  | none =>
    refine (bind_of_ok (get_eq_ok s)).trans ?_
    generalize Sync.capture (sources s.host) root false (Finding.distinct fs) = captured
    obtain ⟨kept, count⟩ := captured
    dsimp only
    rw [bind_of_ok (modifyStore_eq_ok _ s)]
    exact onHost_bind_pure _ _ _

theorem replaceAll_eq_ok {root : Path} {fs kept : List Finding} {s s' : Session}
    (h : replaceAll root fs s = .ok kept s') :
    kept = (Sync.capture (sources s.host) root false (Finding.distinct fs)).1 ∧
      Repository.save root kept s.host = .ok () s'.host ∧ get root s' = kept := by
  rw [replaceAll_eq] at h
  split at h
  · cases h
  · generalize (Sync.capture (sources s.host) root false (Finding.distinct fs)).1 = gs at h ⊢
    dsimp only at h
    cases hsave : Repository.save root gs s.host with
    | ok u h' =>
      rw [hsave] at h
      cases h
      refine ⟨rfl, hsave, ?_⟩
      rw [get, key_of_cwd (cwd_of_save hsave)]
      exact getKey_put _ _ _
    | error e h' =>
      rw [hsave] at h
      cases h

/-- Validating nothing changes nothing. -/
theorem validate_of_nil {root : Path} {changed : Option Path} {s : Session}
    (hnil : get root s = []) :
    validate root changed s = .ok .empty s := by
  unfold validate
  rw [bind_of_ok (get_eq_ok s)]
  dsimp only
  rw [show s.store.getKey (s.host.key root) = [] from hnil]
  rfl

/-- **Validating, in one step**: what the pass over the sources answers is kept, and written if it
has checked anything. -/
theorem validate_of_ne_nil {root : Path} {changed : Option Path} {s : Session} {fs : List Finding}
    {report : Sync.Report} (hkept : get root s ≠ [])
    (hpass : Sync.validate (sources s.host) root changed (get root s) = (fs, report)) :
    validate root changed s =
      if report.checked = 0 then .ok report ⟨s.store.put (s.host.key root) fs, s.host⟩
      else
        match Repository.save root fs s.host with
        | .ok _ h => .ok report ⟨s.store.put (s.host.key root) fs, h⟩
        | .error e h => .error e ⟨s.store.put (s.host.key root) fs, h⟩ := by
  obtain ⟨f, rest, hfs⟩ := List.exists_cons_of_ne_nil hkept
  rw [hfs] at hpass
  unfold validate
  rw [bind_of_ok (get_eq_ok s)]
  dsimp only
  rw [show s.store.getKey (s.host.key root) = f :: rest from hfs]
  dsimp only
  rw [hpass]
  dsimp only
  rw [bind_of_ok (modifyStore_eq_ok _ s)]
  by_cases hchecked : report.checked = 0
  · rw [if_neg (not_not.2 hchecked), if_pos hchecked]
    rfl
  · rw [if_pos hchecked, if_neg hchecked]
    exact onHost_bind_pure _ _ _

/-- What a validation leaves, whether or not it can write. -/
theorem sessionAfter_validate {root : Path} {changed : Option Path} {s : Session}
    {fs : List Finding}
    {report : Sync.Report} (hkept : get root s ≠ [])
    (hpass : Sync.validate (sources s.host) root changed (get root s) = (fs, report)) :
    sessionAfter (validate root changed) s = ⟨s.store.put (s.host.key root) fs,
      if report.checked = 0 then s.host else (Repository.save root fs).after s.host⟩ := by
  rw [sessionAfter, validate_of_ne_nil hkept hpass, Action.after]
  by_cases hchecked : report.checked = 0
  · rw [if_pos hchecked, if_pos hchecked]
  · rw [if_neg hchecked, if_neg hchecked]
    cases Repository.save root fs s.host <;> rfl

/-- **Validating leaves in memory what the pass over the sources answers**, whether or not that
can be written. -/
theorem get_sessionAfter_validate (root : Path) (changed : Option Path) (s : Session) :
    get root (sessionAfter (validate root changed) s) =
      (Sync.validate (sources s.host) root changed (get root s)).1 := by
  by_cases hnil : get root s = []
  · rw [sessionAfter_of_ok (validate_of_nil hnil), hnil]
    rfl
  · obtain ⟨fs, report, hpass⟩ : ∃ fs report,
        Sync.validate (sources s.host) root changed (get root s) = (fs, report) := ⟨_, _, rfl⟩
    -- Findings are kept under the key of before; a write leaves the directory that it is made from.
    have hget : ∀ h : Host, h.cwd = s.host.cwd →
        get root ⟨s.store.put (s.host.key root) fs, h⟩ = fs := by
      intro h hcwd
      rw [get, key_of_cwd hcwd]
      exact getKey_put _ _ _
    rw [sessionAfter_validate hnil hpass, hpass]
    refine hget _ ?_
    split
    · rfl
    · exact (Repository.filesOnly_save root fs).cwd s.host

theorem validate_eq_ok {root : Path} {changed : Option Path} {report : Sync.Report} {s s' : Session}
    (h : validate root changed s = .ok report s') :
    get root s' = (Sync.validate (sources s.host) root changed (get root s)).1 := by
  rw [← sessionAfter_of_ok h, get_sessionAfter_validate]

/-! ## Loading -/

/-- Reading what is stored answers findings, or fails; the store has no part in it. -/
theorem loadStored_cases (root : Path) (s : Session) :
    (∃ fs, (fs = [] ∨ ∃ h', Repository.load root s.host = .ok (some fs) h') ∧
        loadStored root s = .ok fs { s with host := (Repository.load root).after s.host }) ∨
      ∃ e, loadStored root s = .error e { s with host := (Repository.load root).after s.host } := by
  unfold loadStored onHost
  cases hload : Repository.load root s.host with
  | ok found h' =>
    rw [Action.after_of_ok hload]
    cases found with
    | none => exact .inl ⟨[], .inl rfl, rfl⟩
    | some fs => exact .inl ⟨fs, .inr ⟨h', rfl⟩, rfl⟩
  | error e h' =>
    rw [Action.after_of_error hload]
    cases e with
    | corruptFindings cause => exact .inl ⟨[], .inl rfl, rfl⟩
    | _ => exact .inr ⟨_, rfl⟩

theorem loadStored_of_load {root : Path} {fs : List Finding} {s : Session} {h' : Host}
    (hload : Repository.load root s.host = .ok (some fs) h') :
    loadStored root s = .ok fs { s with host := h' } := by
  unfold loadStored onHost
  rw [hload]
  rfl

/-- Where nothing lacks a digest nothing is recorded. -/
theorem capture_of_not_lacks (src : Sync.Sources) (root : Path) {fs : List Finding}
    (hfs : ¬fs.any lacksDigest = true) : Sync.capture src root true fs = (fs, 0) := by
  refine Sync.capture_eq_self (fun f hf m hm hnone => ?_)
  obtain ⟨p, hp, rfl⟩ := List.mem_map.1 hm
  refine absurd (List.any_eq_true.2 ⟨f, hf, ?_⟩) hfs
  exact List.any_eq_true.2 ⟨p, hp, Option.isNone_iff_eq_none.2 hnone⟩

/-- **Filling in digests, in one step**: a recording of those that lack, which is written if it has
added any. -/
theorem backfill_eq (root : Path) (fs : List Finding) (s : Session) :
    backfill root fs s =
      if (Sync.capture (sources s.host) root true fs).2 = 0 then
        .ok (Sync.capture (sources s.host) root true fs).1 s
      else
        match Repository.save root (Sync.capture (sources s.host) root true fs).1 s.host with
        | .ok _ h => .ok (Sync.capture (sources s.host) root true fs).1 { s with host := h }
        | .error e h => .error e { s with host := h } := by
  unfold backfill
  by_cases hlacks : fs.any lacksDigest = true
  · rw [if_pos hlacks, bind_of_ok (get_eq_ok s)]
    generalize Sync.capture (sources s.host) root true fs = captured
    obtain ⟨gs, count⟩ := captured
    dsimp only
    by_cases hcount : count = 0
    · rw [if_neg (not_not.2 hcount), if_pos hcount]
      rfl
    · rw [if_pos hcount, if_neg hcount]
      exact onHost_bind_pure _ _ _
  · -- Nothing lacks a digest, so that a recording of those that lack has none to add.
    rw [if_neg hlacks, capture_of_not_lacks _ _ hlacks]
    rfl

/-- Filling in digests answers the recording, or fails to write it; the store has no part in it. -/
theorem backfill_cases (root : Path) (fs : List Finding) (s : Session) :
    ∃ h', (Action.writing
      (Repository.Written (Sync.capture (sources s.host) root true fs).1)).Allows
        s.host h' ∧
      (backfill root fs s =
          .ok (Sync.capture (sources s.host) root true fs).1 { s with host := h' } ∨
        ∃ e, backfill root fs s = .error e { s with host := h' }) := by
  rw [backfill_eq]
  split
  · exact ⟨s.host, (Action.writing _).refl s.host, .inl rfl⟩
  · refine ⟨_, Repository.within_save root _ s.host, ?_⟩
    unfold Action.after
    cases Repository.save root (Sync.capture (sources s.host) root true fs).1 s.host with
    | ok u h' => exact .inl rfl
    | error e h' => exact .inr ⟨e, rfl⟩

/-- **Filling in digests writes what it answers**, if it has added any. -/
theorem backfill_eq_ok {root : Path} {fs gs : List Finding} {s s' : Session}
    (h : backfill root fs s = .ok gs s') :
    gs = (Sync.capture (sources s.host) root true fs).1 ∧ s'.store = s.store ∧
      ((Sync.capture (sources s.host) root true fs).2 = 0 ∧ s'.host = s.host ∨
        (Sync.capture (sources s.host) root true fs).2 ≠ 0 ∧
          Repository.save root gs s.host = .ok () s'.host) := by
  rw [backfill_eq] at h
  split at h
  · next hcount =>
    cases h
    exact ⟨rfl, rfl, .inl ⟨hcount, rfl⟩⟩
  · next hcount =>
    cases hsave : Repository.save root (Sync.capture (sources s.host) root true fs).1 s.host with
    | ok u h' =>
      rw [hsave] at h
      cases h
      exact ⟨rfl, rfl, .inr ⟨hcount, hsave⟩⟩
    | error e h' =>
      rw [hsave] at h
      cases h

/-- Where nothing can be recorded nothing is written. -/
theorem backfill_of_capture {root : Path} {fs : List Finding} {s : Session}
    (hcapture : Sync.capture (sources s.host) root true fs = (fs, 0)) :
    backfill root fs s = .ok fs s := by
  rw [backfill_eq, hcapture, if_pos rfl]

/-- What is loaded is in memory as soon as its digests have been filled in. -/
theorem load_of_backfill {root : Path} {loaded fs : List Finding} {s s₁ s₂ : Session}
    (hstored : loadStored root s = .ok loaded s₁) (hfilled : backfill root loaded s₁ = .ok fs s₂) :
    load root s = .ok () { s₂ with store := s₂.store.put (s₂.host.key root) fs } := by
  unfold load
  rw [bind_of_ok hstored, bind_of_ok hfilled, bind_of_ok (get_eq_ok s₂), modifyStore_eq_ok]

/-- **Loading, step by step**: what is stored is read, its digests are filled in, and it is kept. -/
theorem load_eq_ok {root : Path} {s s' : Session} {u : Unit} :
    load root s = .ok u s' ↔ ∃ loaded s₁ fs s₂, loadStored root s = .ok loaded s₁ ∧
      backfill root loaded s₁ = .ok fs s₂ ∧
      s' = { s₂ with store := s₂.store.put (s₂.host.key root) fs } := by
  constructor
  · intro h
    obtain ⟨loaded, s₁, hstored, h⟩ := bind_eq_ok.1 h
    obtain ⟨fs, s₂, hfilled, h⟩ := bind_eq_ok.1 h
    rw [bind_of_ok (get_eq_ok s₂), modifyStore_eq_ok] at h
    cases h
    exact ⟨loaded, s₁, fs, s₂, hstored, hfilled, rfl⟩
  · rintro ⟨loaded, s₁, fs, s₂, hstored, hfilled, rfl⟩
    exact load_of_backfill hstored hfilled

/-- **Loading keeps what is stored with the digests that it lacks.** -/
theorem get_of_load {root : Path} {loaded : List Finding} {s s₁ s' : Session} {u : Unit}
    (hstored : loadStored root s = .ok loaded s₁) (hload : load root s = .ok u s') :
    get root s' = (Sync.capture (sources s₁.host) root true loaded).1 := by
  obtain ⟨_, _, fs, s₂, hstored', hfilled, rfl⟩ := load_eq_ok.1 hload
  rw [hstored] at hstored'
  cases hstored'
  obtain ⟨rfl, -, -⟩ := backfill_eq_ok hfilled
  exact getKey_put _ _ _

end SourceDrift.Store
