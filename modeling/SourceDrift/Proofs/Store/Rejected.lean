/-
Stored findings that cannot be used.

The file of a workspace's findings may hold anything: bytes that are no text, a text that is no
document, a document that lists no findings, or a list with one item that does not fit. A store
that loads such a file has no findings then, not even those that do fit, and the file is left to
whoever can mend it.

The file stays because only what lacks a digest, or has been checked, is ever written again, and
a store without findings has neither. Taking the lock is all that a load does to the world, and
that adds to the files without changing what is there. So the file reads the same after every
load, which is what keeps the next one from finding anything.

One kind of file does not count as such. A text that is nested deeper than there is room for makes
the load itself fail. It is not shown or lost either, but whoever asked for the load is told.
-/
import SourceDrift.Proofs.FileTree.Rooted
import SourceDrift.Proofs.Store.Restart

set_option autoImplicit false

namespace SourceDrift

open FileTree

namespace Host

open SourceDrift.Action

variable {h h' : Host} {root : Path} {e : Failure}

/-- Where a workspace's directory is reached, only the system or the path itself keeps the lock from
being taken. -/
theorem isOfInput_of_lock (hroot : root.Proper) (hcwd : Grounded h.files h.cwd)
    (hdirectory : h.files.isDirectory? h.cwd (Storage.directory root) = .ok true)
    (hlock : lock (Storage.lock root) h = .error e h') : e.isOfInput = true := by
  obtain ⟨hpass, n, place, hn, hleads⟩ := (isDirectory_iff hcwd).1 hdirectory
  have hmade : makeDirectories (Storage.directory root) h = .ok () h :=
    makeDirectories_eq_ok.2 ⟨h.files, makeDirectories_of_isDirectory _ hcwd hdirectory, rfl⟩
  have hresolve : query (fun t cwd => t.resolve cwd (Storage.directory root)) h =
      .ok ⟨"/", place⟩ h :=
    query_eq_ok.2 ⟨resolve_of_leads_directory hroot hcwd hpass hn hleads, rfl⟩
  unfold lock at hlock
  rw [Storage.lock, Path.parent_child, Path.name_child, bind_of_ok hmade,
    bind_of_ok hresolve] at hlock
  unfold change at hlock
  dsimp only at hlock
  cases hensure : h.files.ensureUnlinked h.cwd (Path.child ⟨"/", place⟩ ".lock") with
  | error fault =>
    rw [hensure] at hlock
    cases hlock
    exact isOfInput_of_ensureUnlinked hensure
  | ok files =>
    rw [hensure] at hlock
    cases hlock

end Host

/-! ## What is rejected -/

namespace Repository

open Host SourceDrift.Action

variable {bytes : List UInt8} {root : Path} {h h' : Host} {room : Nat} {text : String}

/-- Whether no findings can be read from stored bytes, by what is wrong with them first. -/
inductive Rejected (room : Nat) (bytes : List UInt8) : Prop
  | undecodable {fault : Utf8.Fault} : Utf8.decodeText bytes = .error fault → Rejected room bytes
  | unreadable {text : String} {e : Json.ReadError} : Utf8.decodeText bytes = .ok text →
      Json.read room text = .error e → Rejected room bytes
  | misshapen {text : String} {document : Json} {e : Analyzer.ShapeError} :
      Utf8.decodeText bytes = .ok text → Json.read room text = .ok document →
      Analyzer.findingItems document = .error e → Rejected room bytes
  | invalid {text : String} {document item : Json} {items : List Json} {issues : List Issue} :
      Utf8.decodeText bytes = .ok text → Json.read room text = .ok document →
      Analyzer.findingItems document = .ok items → item ∈ items →
      Finding.ofJson item = .error issues → Rejected room bytes

/-- Whether stored bytes spell a text that is nested deeper than there is room for. -/
def TooDeep (room : Nat) (bytes : List UInt8) : Prop :=
  ∃ text error, Utf8.decodeText bytes = .ok text ∧ Json.read room text = .error error ∧
    error.problem.isDepth = true

theorem rejected_of_tooDeep (hdeep : TooDeep room bytes) : Rejected room bytes := by
  obtain ⟨text, error, htext, hread, -⟩ := hdeep
  exact .unreadable htext hread

/-- One item that does not fit keeps all of them from being read, and nothing else does. -/
theorem readFindings_eq_error_iff {items : List Json} :
    (∃ e, readFindings items = .error e) ↔ ∃ item ∈ items, ∃ issues,
    Finding.ofJson item = .error issues := by
  induction items with
  | nil => simp [readFindings]
  | cons item rest ih =>
    rw [List.exists_mem_cons_iff, ← ih, readFindings]
    cases Finding.ofJson item with
    | error issues => simp
    | ok f =>
      cases readFindings rest with
      | error e => simp
      | ok fs => simp

/-- **Bytes are rejected exactly if no findings are decoded from them.** -/
theorem rejected_iff : Rejected room bytes ↔
    ∀ text fs, Utf8.decodeText bytes = .ok text → decode room text ≠ .ok fs := by
  constructor
  · intro hrejected text fs htext hdecode
    obtain ⟨document, items, hread, hitems, hfindings⟩ := decode_eq_ok.1 hdecode
    -- Each step of decoding has one outcome, and what makes it fail is not what was found.
    cases hrejected with
    | undecodable hfault =>
      rw [htext] at hfault
      cases hfault
    | unreadable htext' hread' =>
      obtain rfl : text = _ := Except.ok.inj (htext.symm.trans htext')
      rw [hread] at hread'
      cases hread'
    | misshapen htext' hread' hitems' =>
      obtain rfl : text = _ := Except.ok.inj (htext.symm.trans htext')
      obtain rfl : document = _ := Except.ok.inj (hread.symm.trans hread')
      rw [hitems] at hitems'
      cases hitems'
    | invalid htext' hread' hitems' hitem hissues =>
      obtain rfl : text = _ := Except.ok.inj (htext.symm.trans htext')
      obtain rfl : document = _ := Except.ok.inj (hread.symm.trans hread')
      obtain rfl : items = _ := Except.ok.inj (hitems.symm.trans hitems')
      obtain ⟨e, hfailed⟩ := readFindings_eq_error_iff.2 ⟨_, hitem, _, hissues⟩
      rw [hfindings] at hfailed
      cases hfailed
  · intro hnone
    cases htext : Utf8.decodeText bytes with
    | error fault => exact .undecodable htext
    | ok text =>
      cases hread : Json.read room text with
      | error e => exact .unreadable htext hread
      | ok document =>
        cases hitems : Analyzer.findingItems document with
        | error e => exact .misshapen htext hread hitems
        | ok items =>
          cases hfindings : readFindings items with
          | ok fs =>
            exact absurd (decode_eq_ok.2 ⟨document, items, hread, hitems, hfindings⟩)
              (hnone text fs htext)
          | error e =>
            obtain ⟨item, hitem, issues, hissues⟩ := readFindings_eq_error_iff.1 ⟨e, hfindings⟩
            exact .invalid htext hread hitems hitem hissues

/-- What is wrong with findings is wrong with what has been read. -/
theorem isOfInput_of_readFindings {items : List Json} {e : Failure}
    (h : readFindings items = .error e) :
    e.isOfInput = true := by
  induction items with
  | nil => cases h
  | cons item rest ih =>
    rw [readFindings] at h
    cases hitem : Finding.ofJson item with
    | error issues =>
      rw [hitem] at h
      cases h
      rfl
    | ok f =>
      rw [hitem] at h
      cases hrest : readFindings rest with
      | error fault =>
        rw [hrest] at h
        cases h
        exact ih hrest
      | ok fs =>
        rw [hrest] at h
        cases h

/-- **What comes of decoding comes of the text**, unless that is nested too deep. -/
theorem decode_eq_error {e : Failure} (hdecode : decode room text = .error e) :
    e.isOfInput = true ∧
    (∀ error, Json.read room text = .error error → error.problem.isDepth = false) ∨
      ∃ error, Json.read room text = .error error ∧ error.problem.isDepth = true ∧
        e = .unreadable error := by
  have hsteps : decode room text = (readDocument room text).bind fun v =>
      (itemsOf v).bind readFindings := rfl
  rw [hsteps, readDocument] at hdecode
  cases hread : Json.read room text with
  | error error =>
    rw [hread] at hdecode
    cases hdecode
    cases hdepth : error.problem.isDepth with
    | true => exact .inr ⟨error, rfl, hdepth, rfl⟩
    | false =>
      refine .inl ⟨by rw [Failure.isOfInput_unreadable, hdepth]; rfl, fun _ heq => ?_⟩
      rw [← Except.error.inj heq]
      exact hdepth
  | ok document =>
    rw [hread] at hdecode
    refine .inl ⟨?_, fun _ heq => by cases heq⟩
    dsimp only [Except.bind, itemsOf] at hdecode
    cases hitems : Analyzer.findingItems document with
    | error shape =>
      rw [hitems] at hdecode
      cases hdecode
      rfl
    | ok items =>
      rw [hitems] at hdecode
      exact isOfInput_of_readFindings hdecode

/-- Whether a load comes as far as reading stored bytes and finds them nested too deep. -/
def Overflows (h : Host) (root : Path) (bytes : List UInt8) : Prop :=
  TooDeep h.room bytes ∧ ∃ h', Host.lock (Storage.lock root) h = .ok () h'

/-- Where a workspace's stored findings are read its directory is reached. -/
theorem isDirectory_of_readFile (hcwd : Grounded h.files h.cwd)
    (hread : h.files.readFile h.cwd (Storage.results root) = .ok bytes) :
    h.files.isDirectory? h.cwd (Storage.directory root) = .ok true := by
  obtain ⟨q, hlocate, -⟩ := status_eq_ok.1 (readFile_eq_ok.1 hread)
  obtain ⟨hpass, n, d, hn, hleads, -⟩ := (locate_child (by decide)).1 hlocate
  have hparts : (Storage.directory root).parts ≠ [] :=
    List.append_ne_nil_of_right_ne_nil _ (List.cons_ne_nil _ _)
  exact (isDirectory_iff hcwd).2 ⟨hpass.of_child hparts, n, d, hn, hleads⟩

/-- What is read under the lock fails as decoding fails, and is nested too deep if that is not for
what has been read. -/
theorem readLocked_eq_error (hlock : Host.lock (Storage.lock root) h = .ok () h')
    (hread : h.files.readFile h.cwd (Storage.results root) = .ok bytes)
    (hrejected : Rejected room bytes) :
    ∃ e, readLocked room root h = .error e h' ∧ (e.isOfInput = true ∧ ¬TooDeep room bytes ∨
      TooDeep room bytes ∧ ∃ error, e = .unreadable error ∧ error.problem.isDepth = true) := by
  have hthere : h'.files.readFile h'.cwd (Storage.results root) = .ok bytes := by
    rw [Host.cwd_of_lock hlock, readFile_eq_ok]
    exact status_mono (Host.extends_of_lock hlock) (readFile_eq_ok.1 hread)
  unfold readLocked
  rw [bind_of_ok hlock]
  cases htext : Utf8.decodeText bytes with
  | error fault =>
    have hunread : Host.readText (Storage.results root) h' = .error (.undecodable fault) h' := by
      refine query_eq_error.2 ⟨?_, rfl⟩
      rw [FileTree.readText, hthere]
      dsimp only
      rw [htext]
    refine ⟨_, bind_of_error hunread, .inl ⟨rfl, ?_⟩⟩
    rintro ⟨text, error, htext', -⟩
    rw [htext] at htext'
    cases htext'
  | ok text =>
    have hfound : Host.readText (Storage.results root) h' = .ok text h' :=
      query_eq_ok.2 ⟨readText_eq_ok.2 ⟨bytes, hthere, htext⟩, rfl⟩
    rw [bind_of_ok hfound]
    cases hdecode : decode room text with
    | ok fs => exact absurd hdecode (rejected_iff.1 hrejected text fs htext)
    | error e =>
      refine ⟨e, rfl, ?_⟩
      rcases decode_eq_error hdecode with ⟨hinput, hshallow⟩ | ⟨error, hdeep, hdepth, rfl⟩
      · refine .inl ⟨hinput, ?_⟩
        rintro ⟨text', error, htext', hdeep, hdepth⟩
        obtain rfl := Except.ok.inj (htext.symm.trans htext')
        rw [hshallow error hdeep] at hdepth
        cases hdepth
      · exact .inr ⟨⟨text, error, htext, hdeep, hdepth⟩, error, rfl, hdepth⟩

/-- **Rejected findings are never loaded.** Loading says that they are corrupt, or fails as it is,
and the latter exactly if they are nested too deep and it has come as far as reading them. -/
theorem load_of_rejected (hroot : root.Proper) (hcwd : Grounded h.files h.cwd)
    (hread : h.files.readFile h.cwd (Storage.results root) = .ok bytes)
    (hrejected : Rejected h.room bytes) :
    ∃ e h', load root h = .error e h' ∧
    ((∃ cause, e = .corruptFindings cause) ∧ ¬Overflows h root bytes ∨
      Overflows h root bytes ∧ ∃ error, e = .unreadable error ∧ error.problem.isDepth = true) := by
  have hexists : h.files.exists? h.cwd (Storage.results root) = .ok true :=
    test_eq_true.2 ⟨_, readFile_eq_ok.1 hread, rfl⟩
  rw [load_eq, hexists]
  cases hlock : Host.lock (Storage.lock root) h with
  | error e h' =>
    have hinput := Host.isOfInput_of_lock hroot hcwd (isDirectory_of_readFile hcwd hread) hlock
    have htried : readLocked h.room root h = .error e h' := bind_of_error hlock
    refine ⟨_, h', by rw [htried], .inl ⟨⟨e, if_pos hinput⟩, ?_⟩⟩
    rintro ⟨-, h'', htaken⟩
    rw [hlock] at htaken
    cases htaken
  | ok u h' =>
    obtain ⟨e, htried, hcases⟩ := readLocked_eq_error hlock hread hrejected
    refine ⟨_, h', by rw [htried], ?_⟩
    rcases hcases with ⟨hinput, hshallow⟩ | ⟨hdeep, error, rfl, hdepth⟩
    · exact .inl ⟨⟨e, if_pos hinput⟩, fun hoverflows => hshallow hoverflows.1⟩
    · refine .inr ⟨⟨hdeep, h', hlock⟩, error, if_neg ?_, hdepth⟩
      rw [Failure.isOfInput_unreadable, hdepth]
      decide

end Repository

namespace Store

/-! ## Looking at a workspace -/

variable {root : Path} {bytes : List UInt8} {s : Session} {w v : World}

/-- A place that has the lock's name. -/
def IsLockName (q : Place) : Prop := q.getLast? = some ".lock"

/-- **A store that loads rejected findings has none**, or is told that they are nested too deep. In
the world nothing has changed but that the lock may have been added. -/
theorem load_of_rejected (hroot : root.Proper) (hcwd : Grounded s.host.files s.host.cwd)
    (hread : s.host.files.readFile s.host.cwd (Storage.results root) = .ok bytes)
    (hrejected : Repository.Rejected s.host.room bytes) :
    ∃ h', (Host.adding IsLockName).Allows s.host h' ∧
      (¬Repository.Overflows s.host root bytes ∧
          load root s = .ok () ⟨s.store.put (s.host.key root) [], h'⟩ ∨
        Repository.Overflows s.host root bytes ∧ ∃ error, error.problem.isDepth = true ∧
          load root s = .error (.unreadable error) { s with host := h' }) := by
  obtain ⟨e, h', hload, hcases⟩ := Repository.load_of_rejected hroot hcwd hread hrejected
  have hadding := Repository.adding_load (Q := IsLockName) (fun _ => id) root s.host
  rw [Action.after_of_error hload] at hadding
  have hstays : h'.cwd = s.host.cwd := by rw [hadding.1]
  refine ⟨h', hadding, ?_⟩
  rcases hcases with ⟨⟨cause, rfl⟩, hno⟩ | ⟨hoverflows, error, rfl, hdepth⟩
  · have hstored : loadStored root s = .ok [] { s with host := h' } := by
      unfold loadStored onHost
      rw [hload]
    have hfilled : backfill root [] { s with host := h' } = .ok [] { s with host := h' } := rfl
    refine .inl ⟨hno, ?_⟩
    rw [load_of_backfill hstored hfilled, key_of_cwd hstays]
  · have hunstored : loadStored root s = .error (.unreadable error) { s with host := h' } := by
      unfold loadStored onHost
      rw [hload]
    exact .inr ⟨hoverflows, error, hdepth, bind_of_error hunstored⟩

/-- Whether a world is one that another becomes while stores load and validate a workspace. Getting
its findings, listing the visible ones and opening one change nothing and are no steps. -/
inductive Looked (root : Path) (w : World) : World → Prop
  | refl : Looked root w w
  | load {v : World} (name : String) : Looked root w v → Looked root w (v.step name (.load root))
  | validate {v : World} (name : String) (changed : Option Path) : Looked root w v →
      Looked root w (v.step name (.validate root changed))

/-- Whether a world is as it was, but for directories and locks that have been added, and its stores
are empty. -/
structure Untouched (w v : World) : Prop where
  host : (Host.adding IsLockName).Allows w.host v.host
  memory : ∀ name key, (v.stores name).getKey key = []

namespace Untouched

variable (h : Untouched w v)
include h

theorem cwd : v.host.cwd = w.host.cwd := by
  rw [h.host.1]

theorem room : v.host.room = w.host.room := by
  rw [h.host.1]
  rfl

theorem grounded (hcwd : Grounded w.host.files w.host.cwd) : Grounded v.host.files v.host.cwd := by
  rw [h.cwd]
  exact hcwd.mono h.host.2.keeps.waysIn.directory

theorem readFile (hread : w.host.files.readFile w.host.cwd (Storage.results root) = .ok bytes) :
    v.host.files.readFile v.host.cwd (Storage.results root) = .ok bytes := by
  rw [h.cwd, readFile_eq_ok]
  exact status_mono h.host.2.keeps (readFile_eq_ok.1 hread)

/-- A step that leaves a store of an untouched world empty leaves the world untouched. -/
theorem step {name : String} {op : Operation}
    (hhost : (Host.adding IsLockName).Allows v.host (op.run (v.session name)).host)
    (hmemory : ∀ key, (op.run (v.session name)).store.getKey key = []) :
    Untouched w (v.step name op) := by
  refine ⟨(Host.adding IsLockName).trans h.host hhost, fun other key => ?_⟩
  by_cases hother : other = name
  · have hstore : (v.step name op).stores other = (op.run (v.session name)).store := if_pos hother
    rw [hstore, hmemory]
  · rw [World.stores_step_of_ne hother, h.memory]

end Untouched

theorem getKey_put_nil (store : Store) (key other : String) (hnil : store.getKey other = []) :
    (store.put key []).getKey other = [] := by
  by_cases hkey : other = key
  · rw [hkey, getKey_put]
  · rw [getKey_put_of_ne hkey, hnil]

/-- **Looking at a workspace leaves rejected findings alone.** The induction is on the run: every
load finds the file as the first did. -/
theorem Looked.untouched (hroot : root.Proper) (hcwd : Grounded w.host.files w.host.cwd)
    (hrun : Looked root w v) (hfresh : ∀ name, (w.stores name).collections = [])
    (hread : w.host.files.readFile w.host.cwd (Storage.results root) = .ok bytes)
    (hrejected : Repository.Rejected w.host.room bytes) : Untouched w v := by
  induction hrun with
  | refl =>
    refine ⟨(Host.adding IsLockName).refl w.host, fun name key => ?_⟩
    rw [getKey, hfresh name]
    rfl
  | @load v name _ ih =>
    rw [← ih.room] at hrejected
    obtain ⟨h', hadding, hcases⟩ := load_of_rejected (s := v.session name) hroot (ih.grounded hcwd)
      (ih.readFile hread) hrejected
    -- Whether or not it succeeds, the load leaves the store without findings.
    rcases hcases with ⟨-, hload⟩ | ⟨-, error, -, hload⟩
    · have hafter : Operation.run (.load root) (v.session name) = _ := sessionAfter_of_ok hload
      refine ih.step (by rw [hafter]; exact hadding) fun key => ?_
      rw [hafter]
      exact getKey_put_nil _ _ _ (ih.memory name key)
    · have hafter : Operation.run (.load root) (v.session name) = _ := sessionAfter_of_error hload
      refine ih.step (by rw [hafter]; exact hadding) fun key => ?_
      rw [hafter]
      exact ih.memory name key
  | @validate v name changed _ ih =>
    have hafter : Operation.run (.validate root changed) (v.session name) = v.session name :=
      sessionAfter_of_ok (validate_of_nil (ih.memory name _))
    refine ih.step (by rw [hafter]; exact (Host.adding IsLockName).refl v.host) fun key => ?_
    rw [hafter]
    exact ih.memory name key

/-- What a store shows while it has loaded nothing but rejected findings: none of that workspace or
of any other, and validating does nothing. -/
structure Blank (root : Path) (s : Session) : Prop where
  get : ∀ other, get other s = []
  visible : ∀ other hidden, visible other hidden s = []
  validate : ∀ changed, validate root changed s = .ok .empty s

/-- **Rejected findings are never shown and never overwritten.** However stores that started empty
have loaded and validated a workspace, its file has the bytes that it had and all else is there
still; it is rejected again, and no store has any findings. Loading succeeds unless the file is
nested too deep and is come to; then it fails with that, and shows nothing either. -/
theorem rejected_findings_are_kept {path : String} (hcwd : Grounded w.host.files w.host.cwd)
    (hfresh : ∀ name, (w.stores name).collections = [])
    (hread : w.host.files.readFile w.host.cwd (Storage.results (Path.ofString path)) = .ok bytes)
    (hrejected : Repository.Rejected w.host.room bytes) (hrun : Looked (Path.ofString path) w v) :
    v.host.files.readFile v.host.cwd (Storage.results (Path.ofString path)) = .ok bytes ∧
      w.host.files.Extends v.host.files ∧
      (∃ e h', Repository.load (Path.ofString path) v.host = .error e h') ∧
      ∀ name, Blank (Path.ofString path) (v.session name) ∧
        ((∃ s', load (Path.ofString path) (v.session name) = .ok () s') ↔
          ¬Repository.Overflows v.host (Path.ofString path) bytes) ∧
        (Repository.Overflows v.host (Path.ofString path) bytes → ∃ error s',
          load (Path.ofString path) (v.session name) = .error (.unreadable error) s' ∧
          error.problem.isDepth = true ∧ get (Path.ofString path) s' = []) := by
  have hroot := Path.proper_ofString path
  generalize Path.ofString path = root at hroot hread hrun ⊢
  have hsame := hrun.untouched hroot hcwd hfresh hread hrejected
  have hthere := hsame.readFile hread
  have hgrounded := hsame.grounded hcwd
  rw [← hsame.room] at hrejected
  obtain ⟨e, h', hunread, -⟩ := Repository.load_of_rejected hroot hgrounded hthere hrejected
  refine ⟨hthere, hsame.host.2.keeps, ⟨e, h', hunread⟩, fun name => ?_⟩
  have hnil : ∀ other, get other (v.session name) = [] := fun other => hsame.memory name _
  refine ⟨⟨hnil, fun other hidden => ?_, fun changed => validate_of_nil (hnil root)⟩, ?_⟩
  · rw [visible, hnil]
    rfl
  obtain ⟨h'', hadding, hcases⟩ := load_of_rejected (s := v.session name) hroot hgrounded hthere
    hrejected
  rcases hcases with ⟨hno, hload⟩ | ⟨hoverflows, error, hdepth, hload⟩
  · exact ⟨iff_of_true ⟨_, hload⟩ hno, fun hoverflows => absurd hoverflows hno⟩
  · refine ⟨iff_of_false ?_ (not_not.2 hoverflows), fun _ => ⟨error, _, hload, hdepth, ?_⟩⟩
    · rintro ⟨s', hok⟩
      rw [hload] at hok
      cases hok
    · rw [get, key_of_cwd (by rw [hadding.1])]
      exact hsame.memory name _

/-- A text that lists a finding and a number. -/
def spoiltText : String := "[\x7b\"check\": \"x\"\x7d, 5]"

/-- A text of brackets that are not closed, one more than there is room for. -/
def bottomlessText : String := String.ofList (List.replicate (Platform.assuredLevels + 1) '[')

/-- Stores with nothing in them, in a directory where a text is stored. -/
def storedWorld (text : String) : World :=
  { freshWorld with host := { freshWorld.host with
      files := (freshWorld.host.files.insert ["w", ".slither"] .directory).insert
        ["w", ".slither", "analysis-results.json"] (.file (Utf8.encode text)) } }

theorem tooDeep_bottomless :
    Repository.TooDeep Platform.assuredLevels (Utf8.encode bottomlessText) := by
  obtain ⟨error, hdeep, hdepth⟩ := Json.read_brackets (Nat.lt_succ_self Platform.assuredLevels)
  refine ⟨bottomlessText, error, Utf8.decodeText_encode fun c hc => ?_, hdeep, hdepth⟩
  rw [bottomlessText, String.toList_ofList] at hc
  rw [List.eq_of_mem_replicate hc]
  decide

/-- Of a finding and a number neither is shown, to the store that loads and validates or to another,
and the number stays where it is. Nor is anything shown of brackets without end, but loading them
fails. -/
theorem rejected_findings_are_kept_second_item :
    let root := Path.ofString ""
    let v := ((storedWorld spoiltText).step "first" (.load root)).step "first" (.validate root none)
    let v' := storedWorld bottomlessText
    (Repository.Rejected Platform.assuredLevels (Utf8.encode spoiltText) ∧
        v.host.files.readFile v.host.cwd (Storage.results root) = .ok (Utf8.encode spoiltText) ∧
        ∀ name, Blank root (v.session name) ∧ ∃ s', load root (v.session name) = .ok () s') ∧
      v'.host.files.readFile v'.host.cwd (Storage.results root) = .ok (Utf8.encode bottomlessText) ∧
        ∀ name, Blank root (v'.session name) ∧
          ∃ error s', load root (v'.session name) = .error (.unreadable error) s' := by
  intro root v v'
  have hcwd : ∀ text, Grounded (storedWorld text).host.files (storedWorld text).host.cwd :=
    fun text => grounded_of_cwd rfl rfl
  have hread : ∀ text, (storedWorld text).host.files.readFile (storedWorld text).host.cwd
      (Storage.results root) = .ok (Utf8.encode text) := fun text =>
    readFile_eq_ok.2 (status_eq_ok.2 ⟨["w", ".slither", "analysis-results.json"],
      eq_ok_of_toOption rfl, rfl⟩)
  constructor
  · have htext : Utf8.decodeText (Utf8.encode spoiltText) = .ok spoiltText :=
      eq_ok_of_toOption (by decide +kernel)
    have hnone : (Repository.decode Platform.assuredLevels spoiltText).toOption.isNone = true := by
      decide +kernel
    have hrejected : Repository.Rejected Platform.assuredLevels (Utf8.encode spoiltText) := by
      rw [Repository.rejected_iff, htext]
      rintro text fs ⟨⟩ hdecode
      rw [hdecode] at hnone
      cases hnone
    have hsome : (Json.read Platform.assuredLevels spoiltText).toOption.isSome = true := by
      decide +kernel
    have hrun : Looked root (storedWorld spoiltText) v :=
      .validate "first" none (.load "first" .refl)
    obtain ⟨hthere, -, -, hblank⟩ := rejected_findings_are_kept (hcwd _) (fun _ => rfl) (hread _)
      hrejected hrun
    have hroom : v.host.room = Platform.assuredLevels :=
      (hrun.untouched (Path.proper_ofString "") (hcwd _) (fun _ => rfl) (hread _) hrejected).room
    refine ⟨hrejected, hthere, fun name => ⟨(hblank name).1, (hblank name).2.1.2 ?_⟩⟩
    rintro ⟨⟨text, error, hdecoded, hdeep, -⟩, -⟩
    obtain rfl := Except.ok.inj (htext.symm.trans hdecoded)
    rw [hroom] at hdeep
    rw [hdeep] at hsome
    cases hsome
  · obtain ⟨hthere, -, -, hblank⟩ := rejected_findings_are_kept (hcwd _) (fun _ => rfl) (hread _)
      (Repository.rejected_of_tooDeep tooDeep_bottomless) (.refl (w := v'))
    obtain ⟨_, hlock⟩ := Action.eq_ok_of_answers
      (show (Host.lock (Storage.lock root)).answers v'.host = true by decide +kernel)
    refine ⟨hthere, fun name => ⟨(hblank name).1, ?_⟩⟩
    obtain ⟨error, s', hload, -⟩ := (hblank name).2.2 ⟨tooDeep_bottomless, _, hlock⟩
    exact ⟨error, s', hload⟩

end Store
end SourceDrift
