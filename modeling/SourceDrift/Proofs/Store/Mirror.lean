/-
The file of the stored findings mirrors what is in memory.

A store puts findings into memory and writes them in one operation, so that the two agree where
each operation starts from agreement. A validation is the one that may change memory and not
write: it writes only if something has been checked. But a pass that checks nothing sets no
state, and there is nothing to write.

One thing can come between. A write puts a file in the place of whatever was there, and if that
was a link on the way to the workspace's directory, what has been written is reached no more.
This can happen to the first write only. After it the file is read as a file, and what is read
as a file is on no way to a directory.
-/
import SourceDrift.Proofs.FileTree.Removal
import SourceDrift.Proofs.Store.Restart

set_option autoImplicit false

namespace SourceDrift

/-! ## Writing again -/

namespace Repository

open FileTree Host SourceDrift.Action

variable {h h' : Host} {root : Path} {fs : List Finding} {text : String}
  {bytes : List UInt8} {u : Unit}

/-- A write keeps the directory that the process is in. -/
theorem Stored.grounded (hstored : Stored h root text) : Grounded h.files h.cwd := by
  obtain ⟨t, place, hbefore, hother, -, hrest⟩ := hstored.replaced
  exact hbefore.grounded.of_agree hrest hother

/-- What is stored can be read if the workspace's directory is reached. -/
theorem Stored.readFile_of_isDirectory (hstored : Stored h root text)
    (hdirectory : h.files.isDirectory? h.cwd (Storage.directory root) = .ok true) :
    h.files.readFile h.cwd (Storage.results root) = .ok (Utf8.encode text) := by
  obtain ⟨place, -, hlocate, hfile⟩ := hstored.locate hdirectory
  exact readFile_eq_ok.2 (status_eq_ok.2 ⟨_, hlocate, hfile⟩)

/-- **What has been saved is there exactly if the workspace's directory is reached.** -/
theorem holds_iff_of_save (hroot : root.Proper) (hcwd : Grounded h.files h.cwd)
    (hsave : save root fs h = .ok u h') :
    Holds root fs h' ↔ h'.files.isDirectory? h'.cwd (Storage.directory root) = .ok true := by
  obtain ⟨text, hencode, hstored⟩ := stored_of_save hroot hcwd hsave
  constructor
  · rintro ⟨_, -, hread⟩
    exact hstored.isDirectory (readFile_eq_ok.1 hread)
  · intro hdirectory
    exact ⟨text, hencode, hstored.readFile_of_isDirectory hdirectory⟩

/-- **Replacing a file that could be read keeps the way to it.** -/
theorem isDirectory_of_save (hroot : root.Proper) (hcwd : Grounded h.files h.cwd)
    (hread : h.files.readFile h.cwd (Storage.results root) = .ok bytes)
    (hsave : save root fs h = .ok u h') :
    h'.files.isDirectory? h'.cwd (Storage.directory root) = .ok true := by
  obtain ⟨text, h₁, -, hlock, hreplace⟩ := save_eq_ok.1 hsave
  obtain ⟨hcwd₁, place, hlocked⟩ := locked_of_lock hroot hcwd hlock
  have hthere := status_mono (extends_of_lock hlock) (readFile_eq_ok.1 hread)
  rw [← hcwd₁] at hlocked hthere
  obtain ⟨hcwd₂, -, hname, hother, -, hrest⟩ :=
    replaceFile_of_locked (by decide) (by decide) hlocked hreplace
  obtain ⟨n, hn, hleads⟩ := hlocked.leads
  -- The file was looked up in the directory that is locked.
  obtain ⟨q, hlocate, hnode⟩ := status_eq_ok.1 hthere
  obtain ⟨-, _, _, -, hleads', hlast⟩ := (locate_child (by decide)).1 hlocate
  obtain ⟨-, rfl⟩ := hleads'.unique hleads
  have hfile : h₁.files.node? q ≠ some .directory := by
    rw [hnode]
    rintro ⟨⟩
  have hplace := hleads.grounded (hlocked.grounded.startOf _)
  have hways := hleads.of_agree hplace hname hrest hlast hfile
  rw [hcwd₂]
  exact (isDirectory_iff (hlocked.grounded.of_agree hrest hother)).2
    ⟨hlocked.passable, n, _, hn, hways⟩

/-- **What is saved where findings could be read before is there.** -/
theorem holds_of_resave (hroot : root.Proper) (hcwd : Grounded h.files h.cwd)
    (hread : h.files.readFile h.cwd (Storage.results root) = .ok bytes)
    (hsave : save root fs h = .ok u h') : Holds root fs h' :=
  (holds_iff_of_save hroot hcwd hsave).2 (isDirectory_of_save hroot hcwd hread hsave)

theorem grounded_of_save (hroot : root.Proper) (hcwd : Grounded h.files h.cwd)
    (hsave : save root fs h = .ok u h') : Grounded h'.files h'.cwd := by
  obtain ⟨_, -, hstored⟩ := stored_of_save hroot hcwd hsave
  exact hstored.grounded

/-! ## Deleting -/

/-- **Where stored findings have been deleted nothing is found any more.** -/
theorem exists_of_delete (hdelete : delete root h = .ok u h') :
    h'.files.exists? h'.cwd (Storage.results root) = .ok false := by
  unfold delete at hdelete
  obtain ⟨found, h₀, hrun, hdelete⟩ := bind_eq_ok.1 hdelete
  obtain ⟨hexists, rfl⟩ := query_eq_ok.1 hrun
  cases found with
  | false =>
    rw [if_neg Bool.false_ne_true] at hdelete
    cases hdelete
    exact hexists
  | true =>
    rw [if_pos rfl] at hdelete
    obtain ⟨_, h₁, hlock, hunlink⟩ := bind_eq_ok.1 hdelete
    obtain ⟨t₂, hremoved, rfl⟩ := change_eq_ok.1 hunlink
    obtain ⟨node, hthere, -⟩ := test_eq_true.1 hexists
    have hthere₁ := status_mono (extends_of_lock hlock) hthere
    rw [← cwd_of_lock hlock] at hthere₁
    exact exists_of_unlink (by decide) (by decide) hthere₁
      (unlink_of_status (by decide) (by decide) hthere₁ hremoved)

end Repository

namespace Store

variable {root : Path} {s s' : Session}

/-- **A validation that succeeds writes what it leaves in memory**, or changes neither. -/
theorem validate_cases {changed : Option Path} {report : Sync.Report}
    (h : validate root changed s = .ok report s') :
    (get root s' = get root s ∧ s'.host = s.host) ∨
      Repository.save root (get root s') s.host = .ok () s'.host := by
  by_cases hnil : get root s = []
  · rw [validate_of_nil hnil] at h
    cases h
    exact .inl ⟨rfl, rfl⟩
  · rw [validate_eq_ok h]
    have hunchecked := @Sync.validate_of_checked (sources s.host) root changed (get root s)
    cases hpass : Sync.validate (sources s.host) root changed (get root s) with
    | mk fs found =>
      rw [hpass] at hunchecked
      rw [validate_of_ne_nil hnil hpass] at h
      -- Nothing is written where nothing has been checked, and then no finding has changed.
      split at h
      · next hchecked =>
        cases h
        exact .inl ⟨hunchecked hchecked, rfl⟩
      · cases hsave : Repository.save root fs s.host with
        | ok u h' =>
          rw [hsave] at h
          cases h
          exact .inr rfl
        | error e h' =>
          rw [hsave] at h
          cases h

/-- A workspace that has been forgotten is known no more, and nothing is found of it. -/
theorem clear_eq_ok {u : Unit} (h : clear root s = .ok u s') :
    get root s' = [] ∧ s'.host.key root ∉ s'.store.workspaces ∧
      s'.host.files.exists? s'.host.cwd (Storage.results root) = .ok false := by
  unfold clear at h
  rw [bind_of_ok (get_eq_ok s), bind_of_ok (modifyStore_eq_ok _ s)] at h
  obtain ⟨hdelete, hstore⟩ := onHost_eq_ok.1 h
  dsimp only at hdelete hstore
  have hcwd : s'.host.cwd = s.host.cwd := by
    rw [← (Repository.within_delete root).filesOnly.cwd s.host, Action.after_of_ok hdelete]
  refine ⟨?_, ?_, Repository.exists_of_delete hdelete⟩
  · rw [get, hstore, key_of_cwd hcwd, getKey_drop, if_pos rfl]
  · rw [hstore, key_of_cwd hcwd, workspaces, drop, List.mem_map]
    rintro ⟨c, hc, hkey⟩
    have hother := (List.mem_filter.1 hc).2
    rw [hkey] at hother
    simp at hother

/-! ## A whole run -/

/-- Whether a session is one that another can become while its store works on one workspace and
no step fails. In between the outside may do anything that leaves the process in a directory,
the workspace's path meaning what it did, and the file of the findings what it was. Looking at
findings, and opening one, is done without a step. -/
inductive Continues (root : Path) (s : Session) : Session → Prop
  | refl : Continues root s s
  | ingest {later after : Session} {items : List Incoming} {kept : List Finding} :
      Continues root s later → Store.ingest root items later = .ok kept after →
      Continues root s after
  | validate {later after : Session} {changed : Option Path} {report : Sync.Report} :
      Continues root s later → Store.validate root changed later = .ok report after →
      Continues root s after
  | outside {later : Session} (h : Host) : Continues root s later → h.files.Grounded h.cwd →
      h.key root = later.host.key root → Repository.ResultsKept root later.host h →
      Continues root s ⟨later.store, h⟩

/-- **A run keeps the mirror**, from where it is there. The induction is on the run; that the
process is in a directory goes along with it, since every write needs it. -/
theorem Continues.holds (h : Continues root s s') (hroot : root.Proper)
    (hcwd : s.host.files.Grounded s.host.cwd) (hholds : Repository.Holds root (get root s) s.host) :
    s'.host.files.Grounded s'.host.cwd ∧ Repository.Holds root (get root s') s'.host := by
  induction h with
  | refl => exact ⟨hcwd, hholds⟩
  | ingest _ hingest ih =>
    obtain ⟨hcwd', _, -, hread⟩ := ih
    obtain ⟨-, hsave, hget⟩ := replaceAll_eq_ok hingest
    rw [hget]
    exact ⟨Repository.grounded_of_save hroot hcwd' hsave,
      Repository.holds_of_resave hroot hcwd' hread hsave⟩
  | validate _ hvalidate ih =>
    obtain ⟨hcwd', hholds'⟩ := ih
    rcases validate_cases hvalidate with ⟨hget, hhost⟩ | hsave
    · rw [hget, hhost]
      exact ⟨hcwd', hholds'⟩
    · obtain ⟨_, -, hread⟩ := hholds'
      exact ⟨Repository.grounded_of_save hroot hcwd' hsave,
        Repository.holds_of_resave hroot hcwd' hread hsave⟩
  | outside h _ hcwd' hkey hkept ih =>
    refine ⟨hcwd', ?_⟩
    rw [get, hkey]
    exact ih.2.kept hkept

/-- **The file of the findings is the text of what is in memory**, at every point of a run that
starts with findings being handed in, exactly if the workspace's directory is still reached by
its path after that. And where a workspace has been forgotten there is nothing. -/
theorem memory_is_mirrored {path : String} {items : List Incoming} {kept : List Finding}
    {s₀ s₁ : Session} (hcwd : s₀.host.files.Grounded s₀.host.cwd)
    (hingest : ingest (Path.ofString path) items s₀ = .ok kept s₁) :
    ((∀ s, Continues (Path.ofString path) s₁ s →
        Repository.Holds (Path.ofString path) (get (Path.ofString path) s) s.host) ↔
      s₁.host.files.isDirectory? s₁.host.cwd (Storage.directory (Path.ofString path)) = .ok true) ∧
    ∀ s s', clear (Path.ofString path) s = .ok () s' →
      get (Path.ofString path) s' = [] ∧
        s'.host.key (Path.ofString path) ∉ s'.store.workspaces ∧
        s'.host.files.exists? s'.host.cwd (Storage.results (Path.ofString path)) = .ok false := by
  have hroot := Path.proper_ofString path
  generalize Path.ofString path = root at hroot hingest ⊢
  obtain ⟨-, hsave, hget⟩ := replaceAll_eq_ok hingest
  have hiff := Repository.holds_iff_of_save hroot hcwd hsave
  rw [← hget] at hiff
  refine ⟨⟨fun hall => hiff.1 (hall s₁ .refl), fun hdirectory s hrun => ?_⟩, fun _ _ => clear_eq_ok⟩
  exact (hrun.holds hroot (Repository.grounded_of_save hroot hcwd hsave) (hiff.2 hdirectory)).2

/-- A document that is no more than the name of a rule. -/
def plainDocument : Json := .obj [("check", .str "x")]

/-- The session after that document has been handed in. -/
def plainSession : Session :=
  sessionAfter (ingest (Path.ofString "") [.document plainDocument]) emptySession

/-- The session after a validation because of a file that the finding does not point at. -/
def plainValidated : Session :=
  sessionAfter (validate (Path.ofString "") (some (Path.ofString "a.sol"))) plainSession

/-- What a validation has changed in memory is on disk, and goes when the workspace is forgotten. -/
theorem memory_is_mirrored_plain :
    (get (Path.ofString "") plainSession).map Finding.sync = [.unknown] ∧
      (get (Path.ofString "") plainValidated).map Finding.sync = [.inSync] ∧
      Repository.Holds (Path.ofString "") (get (Path.ofString "") plainValidated)
        plainValidated.host ∧
      ∃ s', clear (Path.ofString "") plainValidated = .ok () s' ∧ get (Path.ofString "") s' = [] ∧
        s'.host.files.exists? s'.host.cwd (Storage.results (Path.ofString "")) = .ok false := by
  obtain ⟨kept, hingest⟩ :
    ∃ kept, ingest (Path.ofString "") [.document plainDocument] emptySession =
      .ok kept plainSession := eq_ok_of_answer (by decide +kernel)
  obtain ⟨report, hvalidate⟩ : ∃ report, validate (Path.ofString "") (some (Path.ofString "a.sol"))
      plainSession = .ok report plainValidated := eq_ok_of_answer (by decide +kernel)
  obtain ⟨_, hclear⟩ : ∃ u, clear (Path.ofString "") plainValidated =
      .ok u (sessionAfter (clear (Path.ofString "")) plainValidated) :=
    eq_ok_of_answer (by decide +kernel)
  have hdirectory := eq_ok_of_toOption (show (plainSession.host.files.isDirectory?
    plainSession.host.cwd (Storage.directory (Path.ofString ""))).toOption = some true by
      decide +kernel)
  obtain ⟨hmirrored, hcleared⟩ := memory_is_mirrored grounded_emptySession hingest
  obtain ⟨hget, -, hgone⟩ := hcleared _ _ hclear
  exact ⟨by decide +kernel, by decide +kernel,
    hmirrored.2 hdirectory _ (.validate .refl hvalidate), _, hclear, hget, hgone⟩

/-- A session that has the link of `linkedPath` in its directory. -/
def linkedSession : Session := freshWorld.linked.session "first"

/-- The first write may take away the way to what it has written: by a path that runs through a
link in the place of the stored findings nothing can be read after it. -/
theorem mirror_lost_behind_link :
    ∃ (path : String) (items : List Incoming) (kept : List Finding) (s₀ s₁ : Session),
      s₀.host.files.Grounded s₀.host.cwd ∧ ingest (Path.ofString path) items s₀ = .ok kept s₁ ∧
        get (Path.ofString path) s₁ = kept ∧
        ¬Repository.Holds (Path.ofString path) (get (Path.ofString path) s₁) s₁.host := by
  have hcwd : linkedSession.host.files.Grounded linkedSession.host.cwd :=
    grounded_of_cwd (by decide +kernel) (by decide +kernel)
  obtain ⟨kept, hingest⟩ : ∃ kept, ingest (Path.ofString linkedPath) [.document plainDocument]
      linkedSession = .ok kept (sessionAfter (ingest (Path.ofString linkedPath)
        [.document plainDocument]) linkedSession) := eq_ok_of_answer (by decide +kernel)
  refine ⟨linkedPath, _, kept, linkedSession, _, hcwd, hingest, (replaceAll_eq_ok hingest).2.2, ?_⟩
  have hmissing : ((sessionAfter (ingest (Path.ofString linkedPath) [.document plainDocument])
      linkedSession).host.files.readFile (sessionAfter (ingest (Path.ofString linkedPath)
        [.document plainDocument]) linkedSession).host.cwd
        (Storage.results (Path.ofString linkedPath))).toOption = none := by decide +kernel
  rintro ⟨text, -, hread⟩
  rw [hread] at hmissing
  cases hmissing

end Store
end SourceDrift
