/-
Runs of stores.

Any number of stores work in one world, one operation after the other. An operation may fail,
and then leaves what it has done up to then. In between the outside does to the world what it
likes: it edits, moves and removes files, puts links in their place, or takes the process to
another directory.

`Does` says once what an operation can do to the store and to the world, success or not; what
holds in every run is derived from it. What is kept in memory comes from three places: it is
handed in, it is loaded, or it was kept before and has been validated. So a property of lists
of findings that these keep, `Kept`, holds of all that is ever in memory, and of whatever the
stores write; what it needs of loading is left open, since files may come from elsewhere.
-/
import SourceDrift.Proofs.Finding.Canonical
import SourceDrift.Proofs.Store.Operations
import SourceDrift.Proofs.Store.Reload

set_option autoImplicit false

namespace SourceDrift

/-! ## One operation -/

namespace Store

/-- What a store can be told to do. -/
inductive Operation where
  | load (root : Path)
  | ingest (root : Path) (items : List Incoming)
  | clear (root : Path)
  | validate (root : Path) (changed : Option Path)

namespace Operation

/-- The workspace that an operation is about. -/
def root : Operation → Path
  | load root => root
  | ingest root _ => root
  | clear root => root
  | validate root _ => root

/-- The session that an operation leaves, whether or not it succeeds. -/
def run : Operation → Session → Session
  | load root => sessionAfter (Store.load root)
  | ingest root items => sessionAfter (Store.ingest root items)
  | clear root => sessionAfter (Store.clear root)
  | validate root changed => sessionAfter (Store.validate root changed)

/-- The findings that an operation comes by in a session, to keep and to write. -/
def Gives (s : Session) : Operation → List Finding → Prop
  | load root, fs => ∃ loaded,
      (loaded = [] ∨ ∃ h', Repository.load root s.host = .ok (some loaded) h') ∧
      List.Forall₂ Finding.Redigested loaded fs
  | ingest root items, fs =>
    fs = (Sync.capture (sources s.host) root false (Finding.distinct (readIncoming items))).1
  | clear _, _ => False
  | validate root changed, fs => fs = (Sync.validate (sources s.host) root changed (get root s)).1

/-- What an operation writes: a lock file, or the text of what it comes by. -/
def Writes (s : Session) (op : Operation) (bytes : List UInt8) : Prop :=
  bytes = [] ∨ ∃ fs, op.Gives s fs ∧ Repository.Written fs bytes

/-- What an operation can do to a session. Memory stays, or loses a workspace that is to be
forgotten, or has other findings for the workspace; and files are written. -/
structure Does (op : Operation) (s s' : Session) : Prop where
  store : s'.store = s.store ∨
    (op = .clear op.root ∧ s'.store = s.store.drop (s.host.key op.root)) ∨
    ∃ fs, op.Gives s fs ∧ s'.store = s.store.put (s.host.key op.root) fs
  host : (Action.writing (op.Writes s)).Allows s.host s'.host

namespace Does

variable {op : Operation} {s s' : Session} {fs : List Finding}

theorem unchanged (op : Operation) (s : Session) : Does op s s :=
  ⟨.inl rfl, (Action.writing _).refl s.host⟩

/-- Findings that are come by are kept, whether or not they are written then. -/
theorem kept (hgives : op.Gives s fs) (hstore : s'.store = s.store.put (s.host.key op.root) fs)
    (hhost : (Action.writing (Repository.Written fs)).Allows s.host s'.host) : Does op s s' :=
  ⟨.inr (.inr ⟨fs, hgives, hstore⟩),
    Action.writing_mono (fun _ hbytes => .inr ⟨fs, hgives, hbytes⟩) hhost⟩

end Does

theorem does_load (root : Path) (s : Session) : Does (.load root) s (run (.load root) s) := by
  show Does _ s (sessionAfter (Store.load root) s)
  have hlocked : (Action.writing (Writes s (.load root))).Allows s.host
      ((Repository.load root).after s.host) :=
    Action.writing_mono (fun _ => .inl) (Repository.within_load root s.host)
  rcases loadStored_cases root s with ⟨loaded, hloaded, hrun⟩ | ⟨e, hrun⟩
  · have hsame := Sync.capture_redigested (sources ((Repository.load root).after s.host)) root true
      loaded
    obtain ⟨h', hfilled, hrun'⟩ := backfill_cases root loaded
      { s with host := (Repository.load root).after s.host }
    dsimp only at hfilled hrun'
    generalize (Sync.capture (sources ((Repository.load root).after s.host)) root true loaded).1 =
      fs at hsame hfilled hrun'
    have hgives : Gives s (.load root) fs := ⟨loaded, hloaded, hsame⟩
    have hhost : (Action.writing (Writes s (.load root))).Allows s.host h' :=
      (Action.writing _).trans hlocked
        (Action.writing_mono (fun _ hbytes => .inr ⟨fs, hgives, hbytes⟩) hfilled)
    rcases hrun' with hrun' | ⟨e, hrun'⟩
    · have hkey : h'.key root = s.host.key root := by rw [hhost.1]; rfl
      rw [sessionAfter_of_ok (load_of_backfill hrun hrun')]
      refine ⟨.inr (.inr ⟨fs, hgives, ?_⟩), hhost⟩
      exact congrArg (fun key => s.store.put key fs) hkey
    · -- The digests could not be stored, so the findings are not kept either.
      unfold Store.load
      rw [sessionAfter_bind_of_ok hrun, sessionAfter_bind_of_error hrun']
      exact ⟨.inl rfl, hhost⟩
  · unfold Store.load
    rw [sessionAfter_bind_of_error hrun]
    exact ⟨.inl rfl, hlocked⟩

theorem does_ingest (root : Path) (items : List Incoming) (s : Session) :
    Does (.ingest root items) s (run (.ingest root items) s) := by
  show Does _ s (sessionAfter (replaceAll root (readIncoming items)) s)
  have hwithin := Repository.within_save root (Sync.capture (sources s.host) root false
    (Finding.distinct (readIncoming items))).1 s.host
  rw [sessionAfter, replaceAll_eq]
  cases (readIncoming items).findSome? Finding.formFailure? with
  | some e => exact Does.unchanged _ s
  | none =>
    dsimp only
    cases hsave : Repository.save root (Sync.capture (sources s.host) root false
        (Finding.distinct (readIncoming items))).1 s.host with
    | ok u h =>
      rw [Action.after_of_ok hsave] at hwithin
      exact .kept rfl rfl hwithin
    | error e h =>
      rw [Action.after_of_error hsave] at hwithin
      exact .kept rfl rfl hwithin

theorem does_clear (root : Path) (s : Session) : Does (.clear root) s (run (.clear root) s) := by
  show Does _ s (sessionAfter (Store.clear root) s)
  unfold Store.clear
  rw [sessionAfter_bind_of_ok (get_eq_ok s),
    sessionAfter_bind_of_ok (modifyStore_eq_ok _ s),
    sessionAfter_onHost]
  exact ⟨.inr (.inl ⟨rfl, rfl⟩),
    Action.writing_mono (fun _ => .inl) (Repository.within_delete root s.host)⟩

theorem does_validate (root : Path) (changed : Option Path) (s : Session) :
    Does (.validate root changed) s (run (.validate root changed) s) := by
  show Does _ s (sessionAfter (Store.validate root changed) s)
  by_cases hnil : get root s = []
  · rw [sessionAfter_of_ok (validate_of_nil hnil)]
    exact Does.unchanged _ s
  · cases hpass : Sync.validate (sources s.host) root changed (get root s) with
    | mk fs report =>
      have hgives : Gives s (.validate root changed) fs := congrArg Prod.fst hpass.symm
      rw [sessionAfter_validate hnil hpass]
      refine .kept hgives rfl ?_
      dsimp only
      split
      · exact (Action.writing _).refl s.host
      · exact Repository.within_save root fs s.host

/-- **What an operation does**, success or not. -/
theorem does_run (op : Operation) (s : Session) : Does op s (op.run s) := by
  cases op with
  | load root => exact does_load root s
  | ingest root items => exact does_ingest root items s
  | clear root => exact does_clear root s
  | validate root changed => exact does_validate root changed s

end Operation

/-! ## Many operations -/

/-- Stores by their names, the world they work in, and what they have put into files of it. -/
structure World where
  stores : String → Store
  host : Host
  written : List UInt8 → Prop

namespace World

/-- A store with the world around it. -/
def session (w : World) (name : String) : Session := ⟨w.stores name, w.host⟩

/-- The world after an operation of one of the stores. -/
def step (w : World) (name : String) (op : Operation) : World where
  stores other := if other = name then (op.run (w.session name)).store else w.stores other
  host := (op.run (w.session name)).host
  written bytes := w.written bytes ∨ ∃ q,
    (op.run (w.session name)).host.files.node? q = some (.file bytes) ∧
      w.host.files.node? q ≠ some (.file bytes)

theorem session_step_self (w : World) (name : String) (op : Operation) :
    (w.step name op).session name = op.run (w.session name) := by
  have hstore : (w.step name op).stores name = (op.run (w.session name)).store := if_pos rfl
  rw [session, hstore]
  rfl

theorem stores_step_of_ne {name other : String} (hne : other ≠ name) (w : World) (op : Operation) :
    (w.step name op).stores other = w.stores other :=
  if_neg hne

/-- **What one operation changes in the memories** is what the acting store keeps for the one
workspace: nothing any more, or the findings that the operation comes by. -/
theorem getKey_step (w : World) (name other key : String) (op : Operation) :
    ((w.step name op).stores other).getKey key = (w.stores other).getKey key ∨
      other = name ∧ key = w.host.key op.root ∧
        (((w.step name op).stores other).getKey key = [] ∨
          op.Gives (w.session name) (((w.step name op).stores other).getKey key)) := by
  by_cases hother : other = name
  · have hstore : (w.step name op).stores other = (op.run (w.session name)).store := by
      rw [hother]
      exact congrArg Session.store (w.session_step_self name op)
    have hkept : (w.session name).store.getKey key = (w.stores other).getKey key := by
      rw [hother]
      rfl
    rw [hstore]
    -- Memory stays, loses the workspace, or has other findings for it; other keys do not notice.
    rcases (Operation.does_run op (w.session name)).store with heq | ⟨-, heq⟩ | ⟨fs, hfs, heq⟩
    · exact .inl (heq ▸ hkept)
    · by_cases hkey : key = (w.session name).host.key op.root
      · refine .inr ⟨hother, hkey, .inl ?_⟩
        rw [heq, getKey_drop, if_pos hkey]
      · rw [heq, getKey_drop, if_neg hkey]
        exact .inl hkept
    · by_cases hkey : key = (w.session name).host.key op.root
      · refine .inr ⟨hother, hkey, .inr ?_⟩
        rw [heq, hkey, getKey_put]
        exact hfs
      · rw [heq, getKey_put_of_ne hkey]
        exact .inl hkept
  · exact .inl (congrArg (fun store : Store => store.getKey key) (stores_step_of_ne hother w op))

end World

/-- Whether an operation is one that a run may have. What is handed in has no key twice; for
loading the run has a condition. -/
def Operation.Allowed (mayLoad : World → Path → Prop) (w : World) : Operation → Prop
  | load root => mayLoad w root
  | ingest _ items => ∀ item ∈ items, item.WellFormed
  | clear _ => True
  | validate _ _ => True

/-- Whether a world is one that stores with nothing in them can come to. -/
inductive Reached (mayLoad : World → Path → Prop) : World → Prop
  | start {w : World} : (∀ name, (w.stores name).collections = []) → (∀ bytes, ¬w.written bytes) →
      Reached mayLoad w
  | outside {w : World} (h : Host) : Reached mayLoad w → Reached mayLoad { w with host := h }
  | operate {w : World} (name : String) (op : Operation) : Reached mayLoad w →
      op.Allowed mayLoad w → Reached mayLoad (w.step name op)

/-- Stores with nothing in them, in a directory with nothing in it. -/
def freshWorld : World := ⟨fun _ => .empty .always, emptySession.host, fun _ => False⟩

/-- The directory `/w` has only the root above it. -/
theorem grounded_of_cwd {h : Host} (hcwd : h.cwd = ["w"])
    (hnode : h.files.node? ["w"] = some .directory) : h.files.Grounded h.cwd := by
  rw [hcwd]
  exact .down .root ⟨by decide, by decide, by decide⟩ hnode

theorem reached_fresh (mayLoad : World → Path → Prop) : Reached mayLoad freshWorld :=
  .start (fun _ => rfl) (fun _ h => h)

/-- A property of lists of findings that the operations keep: it holds of none, of what is
handed in without duplicates, and of other findings when digests or states of theirs change. -/
structure Kept (Q : List Finding → Prop) : Prop where
  nil : Q []
  handedIn : ∀ {items : List Incoming}, (∀ item ∈ items, item.WellFormed) →
    Q (Finding.distinct (readIncoming items))
  redigested : ∀ {fs gs : List Finding}, List.Forall₂ Finding.Redigested fs gs → Q fs → Q gs
  validated : ∀ {fs : List Finding} (src : Sync.Sources) (root : Path) (changed : Option Path),
    Q fs →
    Q (Sync.validate src root changed fs).1

/-- Whether all findings in the memories have a property, and what has been written is the text
of findings that have it, or nothing. -/
structure World.Keeps (Q : List Finding → Prop) (w : World) : Prop where
  memory : ∀ name key, Q ((w.stores name).getKey key)
  written : ∀ bytes, w.written bytes → bytes = [] ∨ ∃ fs, Q fs ∧ Repository.Written fs bytes

section

variable {Q : List Finding → Prop} {mayLoad : World → Path → Prop} {w : World}

/-- **One operation** comes by findings that have the property. -/
theorem World.Keeps.gives (hQ : Kept Q) (hw : w.Keeps Q) {name : String} {op : Operation}
    (hallowed : op.Allowed mayLoad w)
    (hload : ∀ root fs h', mayLoad w root → Repository.load root w.host = .ok (some fs) h' → Q fs)
    {fs : List Finding} (hgives : op.Gives (w.session name) fs) : Q fs := by
  cases op with
  | load root =>
    obtain ⟨loaded, hloaded, hsame⟩ := hgives
    refine hQ.redigested hsame ?_
    rcases hloaded with rfl | ⟨h', hloaded⟩
    · exact hQ.nil
    · exact hload root loaded h' hallowed hloaded
  | ingest root items =>
    rw [show fs = _ from hgives]
    exact hQ.redigested (Sync.capture_redigested ..) (hQ.handedIn hallowed)
  | clear root => exact hgives.elim
  | validate root changed =>
    rw [show fs = _ from hgives]
    exact hQ.validated _ _ _ (hw.memory name _)

/-- **One operation keeps the property** in memory and in what is written. -/
theorem World.Keeps.step (hQ : Kept Q) (hw : w.Keeps Q) (name : String) {op : Operation}
    (hallowed : op.Allowed mayLoad w)
    (hload : ∀ root fs h', mayLoad w root → Repository.load root w.host = .ok (some fs) h' → Q fs) :
    (w.step name op).Keeps Q := by
  have hdoes := Operation.does_run op (w.session name)
  have hgives : ∀ {fs}, op.Gives (w.session name) fs → Q fs := fun h =>
    World.Keeps.gives hQ hw hallowed hload h
  refine ⟨fun other key => ?_, fun bytes hbytes => ?_⟩
  · rcases w.getKey_step name other key op with heq | ⟨-, -, hempty | hfs⟩
    · rw [heq]
      exact hw.memory other key
    · rw [hempty]
      exact hQ.nil
    · exact hgives hfs
  · rcases hbytes with hbytes | ⟨q, hfile, hnew⟩
    · exact hw.written bytes hbytes
    · -- A file that was not there as it is holds what the operation came by, or nothing.
      rcases hdoes.host.2 q bytes hfile with hfile | hempty | ⟨fs, hfs, htext⟩
      · exact absurd hfile hnew
      · exact .inl hempty
      · exact .inr ⟨fs, hgives hfs, htext⟩

/-- **Every run keeps the property**, if loading does. The induction is on the run; what has
been written is part of what it carries, because it is what may be loaded later. -/
theorem Reached.keeps (hQ : Kept Q)
    (hload : ∀ w : World, w.Keeps Q → ∀ root fs h', mayLoad w root →
      Repository.load root w.host = .ok (some fs) h' → Q fs)
    (hw : Reached mayLoad w) : w.Keeps Q := by
  induction hw with
  | start hempty hnothing =>
    refine ⟨fun name key => ?_, fun bytes hbytes => absurd hbytes (hnothing bytes)⟩
    rw [getKey, hempty name]
    exact hQ.nil
  | outside h _ ih => exact ⟨ih.memory, ih.written⟩
  | operate name op _ hallowed ih => exact ih.step hQ name hallowed (hload _ ih)

end

/-! ## Well-formed findings -/

/-- What is handed in is well-formed once it has been read. -/
theorem wellFormed_handedIn {items : List Incoming} (hitems : ∀ item ∈ items, item.WellFormed) :
    ∀ f ∈ Finding.distinct (readIncoming items), f.WellFormed := by
  intro f hf
  obtain ⟨item, hitem, hread⟩ := mem_handedIn hf
  exact wellFormed_of_read (hitems item hitem) hread

theorem wellFormed_redigested {fs gs : List Finding} (h : List.Forall₂ Finding.Redigested fs gs)
    (hfs : ∀ f ∈ fs, f.WellFormed) : ∀ g ∈ gs, g.WellFormed := by
  intro g hg
  obtain ⟨f, hf, hsame⟩ := Checked.exists_of_mem_forall₂ h hg
  exact (hfs f hf).redigested hsame

theorem wellFormed_validated {fs : List Finding} (src : Sync.Sources) (root : Path)
    (changed : Option Path) (hfs : ∀ f ∈ fs, f.WellFormed) :
    ∀ g ∈ (Sync.validate src root changed fs).1, g.WellFormed := by
  intro g hg
  obtain ⟨f, hf, hsame⟩ :=
    Checked.exists_of_mem_forall₂ (Sync.validate_restated src root changed fs) hg
  exact (hfs f hf).restated hsame

/-- Being such as are read is kept by the operations. -/
theorem kept_wellFormed : Kept fun fs => ∀ f ∈ fs, f.WellFormed where
  nil _ hf := absurd hf List.not_mem_nil
  handedIn := wellFormed_handedIn
  redigested := wellFormed_redigested
  validated := wellFormed_validated

end Store
end SourceDrift
