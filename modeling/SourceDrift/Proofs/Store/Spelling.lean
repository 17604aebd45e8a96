/-
One workspace under two spellings of its path.

In memory a workspace is known by its key, for which double dots are resolved in the text. On
disk its findings are where its path leads, links followed. So two paths with one key share
what is in memory, and they share what is on disk if they lead to one entry of a directory.

`one_place_of_one_key` says that then a workspace is one place: what is handed in under one path
is loaded under the other and found under both. Paths that are straight as far as their last
double dot are such paths. `key_without_place` shows the two ways in which others are not: what
stands before a double dot is a link, or is missing.
-/
import SourceDrift.Proofs.FileTree.Rooted
import SourceDrift.Proofs.FileTree.Straight
import SourceDrift.Proofs.Store.Mirror
import SourceDrift.Proofs.Sync.Complete

set_option autoImplicit false

namespace SourceDrift

theorem Storage.passable_directory {root : Path} (hpass : FileTree.Passable (results root)) :
    FileTree.Passable (directory root) :=
  hpass.of_child (List.append_ne_nil_of_right_ne_nil _ (List.cons_ne_nil _ _))

/-! ## One entry -/

namespace Repository

open FileTree Host

variable {h h' : Host} {root other : Path} {fs : List Finding} {text : String} {u : Unit}

/-- Whether the stored findings of two paths are one entry of one directory. -/
def SameEntry (root other : Path) (h : Host) : Prop :=
  ∃ q, h.files.locate h.cwd .entry (Storage.results root) = .ok q ∧
    h.files.locate h.cwd .entry (Storage.results other) = .ok q

/-- **What is stored under one path is found, and can be locked, under another** that leads to the
same entry. -/
theorem Stored.under_other (hstored : Stored h root text) (hsame : SameEntry root other h) :
    (∃ place, Locked h.files h.cwd other place) ∧
      h.files.readFile h.cwd (Storage.results other) = .ok (Utf8.encode text) := by
  obtain ⟨q, hentry, hentry'⟩ := hsame
  obtain ⟨-, hname, n, d, hn, hleads, rfl⟩ := (locate_entry_child (by decide) (by decide)).1 hentry
  obtain ⟨hpass, -, n', d', hn', hleads', hq⟩ :=
    (locate_entry_child (by decide) (by decide)).1 hentry'
  obtain ⟨rfl, -⟩ := List.append_inj' hq rfl
  have hdirectory := (isDirectory_iff hstored.grounded).2
    ⟨Storage.passable_directory hstored.passable, n, d, hn, hleads⟩
  obtain ⟨place, hlocked, -, hfile⟩ := hstored.locate hdirectory
  -- The directory that both paths lead to is the one that the findings were stored in.
  obtain ⟨_, -, hplace⟩ := hlocked.leads
  obtain ⟨-, rfl⟩ := hleads.unique hplace
  refine ⟨⟨d, hlocked.grounded, Storage.passable_directory hpass, ⟨n', hn', hleads'⟩,
    hlocked.short, hlocked.file⟩, ?_⟩
  refine readFile_eq_ok.2 (status_eq_ok.2 ⟨_, (locate_child (by decide)).2
    ⟨hpass, n', d, hn', hleads', walk_unlinked hname ?_⟩, hfile⟩)
  rw [hfile]
  rintro target ⟨⟩

/-- **What has been saved under one path is loaded under the other**, and nothing is written. -/
theorem load_of_sameEntry (hroot : root.Proper) (hother : other.Proper)
    (hcwd : Grounded h.files h.cwd) (hfs : ∀ f ∈ fs, f.WellFormed ∧ ¬f.HidesState)
    (hsave : save root fs h = .ok u h') (hsame : SameEntry root other h') :
    load other h' = .ok (some (fs.map Finding.stored)) h' := by
  obtain ⟨text, hencode, hstored⟩ := stored_of_save hroot hcwd hsave
  obtain ⟨⟨place, hlocked⟩, hread⟩ := hstored.under_other hsame
  exact Holds.load ⟨text, hencode, hread⟩ hfs (lock_of_locked hother hlocked)

/-- **Straight paths with one normal form have one entry**, if one of them is reached. -/
theorem sameEntry_of_straight (hroot : root.Proper) (hother : other.Proper)
    (hcwd : Grounded h.files h.cwd) (hnormal : root.normalize h.cwd = other.normalize h.cwd)
    (hstraight : Straight h.files h.cwd root) (hstraight' : Straight h.files h.cwd other)
    (hpass : Passable (Storage.results root)) (hpass' : Passable (Storage.results other))
    (hreached : h.files.isDirectory? h.cwd (Storage.directory root) = .ok true) :
    SameEntry root other h := by
  obtain ⟨-, n, d, hn, hleads⟩ := (isDirectory_iff hcwd).1 hreached
  obtain ⟨n₁, n₂, m, rfl, hfirst, hsecond⟩ :=
    Leads.split (show Leads _ _ _ (root.parts ++ [".slither"]) d from hleads)
  have hfirst' := (hstraight.leads_congr hstraight' hcwd hroot hother hnormal).1 hfirst
  have hname : IsName "analysis-results.json" := ⟨by decide, by decide, by decide⟩
  refine ⟨d ++ ["analysis-results.json"], ?_, ?_⟩
  · exact (locate_entry_child (by decide) (by decide)).2 ⟨hpass, hname, _, d, hn, hleads, rfl⟩
  · exact (locate_entry_child (by decide) (by decide)).2
      ⟨hpass', hname, _, d, hn, hfirst'.append hsecond, rfl⟩

end Repository

namespace Store

variable {root : Path} {fs : List Finding} {s : Session}

/-! ## Loading under another path -/

/-- Where nothing lacks a digest, loading does nothing but keep what is stored. -/
theorem load_of_complete (hload : Repository.load root s.host = .ok (some fs) s.host)
    (hfs : ∀ f ∈ fs, ∀ m ∈ Sync.mappings f, m.digest.isSome) :
    load root s = .ok () { s with store := s.store.put (s.host.key root) fs } := by
  have hcapture : Sync.capture (sources s.host) root true fs = (fs, 0) := by
    refine Sync.capture_eq_self (fun f hf m hm hnone => ?_)
    have hsome := hfs f hf m hm
    rw [hnone] at hsome
    cases hsome
  exact load_of_backfill (loadStored_of_load hload) (backfill_of_capture hcapture)

/-- What is stored has a digest wherever what is kept has one. -/
theorem digest_stored {f : Finding} (hf : ∀ m ∈ Sync.mappings f, m.digest.isSome) :
    ∀ m ∈ Sync.mappings f.stored, m.digest.isSome := by
  have hpoints : Sync.mappings f.stored = (Sync.mappings f).map SourceMapping.dropNonFinite :=
    f.pointsAs_stored
  intro m hm
  rw [hpoints] at hm
  obtain ⟨m', hm', rfl⟩ := List.mem_map.1 hm
  exact hf m' hm'

/-- **A workspace is one place under two paths with one key** if these lead to one entry for the
stored findings: what is handed in under one is loaded by any store under the other, and then
found under both, and the files stay as they are. Two paths with one key lead to one entry if
both are straight, the one is still reached after the write and the other can be handed to the
file system. -/
theorem one_place_of_one_key (other : Store) {first second : String} {raw : List Incoming}
    {kept : List Finding} {s s' : Session} (hcwd : s.host.files.Grounded s.host.cwd)
    (hnames : ∀ name ∈ s.host.cwd, Path.IsPart name)
    (hraw : ∀ item ∈ raw, item.WellFormed ∧ item.CarriesNoState)
    (hreadable : ∀ f ∈ readIncoming raw, ∀ m ∈ Sync.mappings f,
      ((sources s.host).read (m.file (Path.ofString first))).isSome)
    (hkey : s.host.key (Path.ofString first) = s.host.key (Path.ofString second))
    (hingest : ingest (Path.ofString first) raw s = .ok kept s') :
    (Repository.SameEntry (Path.ofString first) (Path.ofString second) s'.host →
        ∃ store, load (Path.ofString second) ⟨other, s'.host⟩ = .ok () ⟨store, s'.host⟩ ∧
          ∀ path ∈ [Path.ofString first, Path.ofString second],
            (get path ⟨store, s'.host⟩).map Finding.document =
                (get (Path.ofString first) s').map Finding.document ∧
              (get path ⟨store, s'.host⟩).map Finding.sync =
                (get (Path.ofString first) s').map Finding.sync) ∧
      (s'.host.files.Straight s'.host.cwd (Path.ofString first) →
        s'.host.files.Straight s'.host.cwd (Path.ofString second) →
        s'.host.files.isDirectory? s'.host.cwd (Storage.directory (Path.ofString first)) =
          .ok true →
        FileTree.Passable (Storage.results (Path.ofString second)) →
        Repository.SameEntry (Path.ofString first) (Path.ofString second) s'.host) := by
  have hroot := Path.proper_ofString first
  have hroot' := Path.proper_ofString second
  generalize Path.ofString first = root at hroot hreadable hkey hingest ⊢
  generalize Path.ofString second = root' at hroot' hkey ⊢
  obtain ⟨hkept, hsave, hget⟩ := replaceAll_eq_ok hingest
  have hplace := cwd_of_save hsave
  constructor
  · intro hsame
    have hload := Repository.load_of_sameEntry hroot hroot' hcwd (kept_of_ingest hraw hingest)
      hsave hsame
    -- Every file could be read when the findings were handed in, so that no digest is missing.
    have hdigests : ∀ f ∈ kept, ∀ m ∈ Sync.mappings f, m.digest.isSome := by
      rw [hkept]
      exact Sync.digest_capture fun f hf => hreadable f ((Finding.distinct_sublist _).subset hf)
    have hcomplete : ∀ f ∈ kept.map Finding.stored, ∀ m ∈ Sync.mappings f, m.digest.isSome := by
      rw [List.forall_mem_map]
      exact fun f hf => digest_stored (hdigests f hf)
    refine ⟨_, load_of_complete (s := ⟨other, s'.host⟩) hload hcomplete, ?_⟩
    intro path hpath
    have hsamekey : s'.host.key path = s'.host.key root' := by
      rw [key_of_cwd hplace, key_of_cwd hplace]
      rcases List.mem_pair.1 hpath with rfl | rfl
      · exact hkey
      · rfl
    rw [get, hsamekey, getKey_put, hget, List.map_map, List.map_map]
    exact ⟨List.map_congr_left fun f _ => f.document_stored,
      List.map_congr_left fun f _ => f.sync_stored⟩
  · intro hstraight hstraight' hreached hpass
    obtain ⟨_, -, hstored⟩ := Repository.stored_of_save hroot hcwd hsave
    have hnormal := Path.normalize_eq_of_key hroot hroot' hnames hkey
    rw [← hplace] at hnormal
    exact Repository.sameEntry_of_straight hroot hroot' hstored.grounded hnormal hstraight
      hstraight' hstored.passable hpass hreached

/-- A session in a directory with another directory and a file in it. -/
def besideSession : Session :=
  ⟨.empty .always, ⟨⟨[(["w"], .directory), (["w", "d"], .directory), (["w", "b.sol"], .file [99])]⟩,
    ["w"], .plain, .missing, []⟩⟩

/-- The session after a finding has been handed in that points at the file. -/
def besideHandedIn : Session :=
  sessionAfter (ingest (Path.ofString "") [.document lateDocument]) besideSession

/-- A way down into a directory and up again is another spelling of the workspace: the finding that
was handed in is loaded by it, and found under both. -/
theorem one_place_of_one_key_upward :
    (get (Path.ofString "") besideHandedIn).length = 1 ∧
      ∃ store, load (Path.ofString "d/..") ⟨.empty .always, besideHandedIn.host⟩ =
          .ok () ⟨store, besideHandedIn.host⟩ ∧
        ∀ path ∈ [Path.ofString "", Path.ofString "d/.."],
          (get path ⟨store, besideHandedIn.host⟩).map Finding.document =
            (get (Path.ofString "") besideHandedIn).map Finding.document := by
  have hnames : ∀ name ∈ besideSession.host.cwd, Path.IsPart name := by
    intro name hname
    rw [List.mem_singleton.1 hname]
    exact ⟨by decide, by decide⟩
  have hraw : ∀ item ∈ [Incoming.document lateDocument], item.WellFormed ∧ item.CarriesNoState :=
    fun item hitem => ⟨(handedIn_lateDocument item hitem).1, (handedIn_lateDocument item hitem).2.1⟩
  obtain ⟨kept, hingest⟩ : ∃ kept, ingest (Path.ofString "") [.document lateDocument]
      besideSession = .ok kept besideHandedIn := eq_ok_of_answer (by decide +kernel)
  -- What can be evaluated is evaluated at one go, so that the session is evaluated once.
  obtain ⟨hcount, hcwd, hnode, hreached⟩ :
      (get (Path.ofString "") besideHandedIn).length = 1 ∧ besideHandedIn.host.cwd = ["w"] ∧
        besideHandedIn.host.files.node? ["w", "d"] = some .directory ∧
        (besideHandedIn.host.files.isDirectory? besideHandedIn.host.cwd
          (Storage.directory (Path.ofString ""))).toOption = some true := by
    decide +kernel
  have hkey : besideSession.host.key (Path.ofString "") =
      besideSession.host.key (Path.ofString "d/..") := by decide
  obtain ⟨hsame, hstraight⟩ := one_place_of_one_key (.empty .always) (grounded_of_cwd rfl rfl)
    hnames hraw (by decide +kernel) hkey hingest
  have hleads : besideHandedIn.host.files.Leads 0 ["w"] ["d", ".."] ["w"] :=
    .down ⟨by decide, by decide, by decide⟩ hnode (.up .nil)
  have hentry := hstraight (FileTree.straight_of_not_mem (by decide))
    ⟨["d", ".."], [], ["w"], by decide, List.not_mem_nil, by rw [hcwd]; exact hleads⟩
    (eq_ok_of_toOption hreached) ⟨by decide, by decide⟩
  obtain ⟨store, hload, hall⟩ := hsame hentry
  exact ⟨hcount, store, hload, fun path hpath => (hall path hpath).1⟩

/-- A session in a directory with a link to a directory elsewhere in it. -/
def asideSession : Session :=
  ⟨.empty .always, ⟨⟨[(["w"], .directory), (["v"], .directory), (["v", "d"], .directory),
    (["w", "l"], .link "../v/d")]⟩, ["w"], .plain, .missing, []⟩⟩

/-- The session after the name of a rule has been handed in as a finding. -/
def asideHandedIn : Session :=
  sessionAfter (ingest (Path.ofString "") [.document plainDocument]) asideSession

/-- Whether two paths have one key and name two workspaces: something is handed in under the one,
and a new store that loads the other finds under neither what the first store keeps. -/
def Divided (first second : String) : Prop :=
  ∃ (raw : List Incoming) (kept : List Finding) (s s' s₄ : Session),
    s.host.files.Grounded s.host.cwd ∧ (∀ item ∈ raw, item.WellFormed ∧ item.CarriesNoState) ∧
      (∀ f ∈ readIncoming raw, ∀ m ∈ Sync.mappings f,
        ((sources s.host).read (m.file (Path.ofString first))).isSome) ∧
      s.host.key (Path.ofString first) = s.host.key (Path.ofString second) ∧
      ingest (Path.ofString first) raw s = .ok kept s' ∧
      load (Path.ofString second) ⟨.empty .always, s'.host⟩ = .ok () s₄ ∧
      (get (Path.ofString second) s₄).map Finding.document ≠
        (get (Path.ofString first) s').map Finding.document ∧
      (get (Path.ofString first) s₄).map Finding.document ≠
        (get (Path.ofString first) s').map Finding.document

theorem divided_aside : ∀ second ∈ ["l/..", "m/.."], Divided "" second := by
  intro second hsecond
  obtain ⟨kept, hingest⟩ : ∃ kept, ingest (Path.ofString "") [.document plainDocument]
      asideSession = .ok kept asideHandedIn := eq_ok_of_answer (by decide +kernel)
  have hraw : ∀ item ∈ [Incoming.document plainDocument],
      item.WellFormed ∧ item.CarriesNoState := by
    intro item hitem
    rw [List.mem_singleton.1 hitem]
    exact ⟨(by decide : plainDocument.hasUniqueKeys = true), by decide⟩
  -- The new store has loaded nothing, where the first keeps one finding.
  have hloads : ∀ second ∈ ["l/..", "m/.."],
      asideSession.host.key (Path.ofString "") = asideSession.host.key (Path.ofString second) ∧
        (answer? (load (Path.ofString second)) ⟨.empty .always, asideHandedIn.host⟩).isSome ∧
        (get (Path.ofString "") asideHandedIn).length = 1 ∧
        ∀ path ∈ [Path.ofString second, Path.ofString ""],
          get path (sessionAfter (load (Path.ofString second))
            ⟨.empty .always, asideHandedIn.host⟩) = [] := by
    decide +kernel
  obtain ⟨hkey, hanswer, hcount, hnone⟩ := hloads second hsecond
  obtain ⟨_, hload⟩ := eq_ok_of_answer hanswer
  have hdiffers : ∀ path ∈ [Path.ofString second, Path.ofString ""],
      (get path (sessionAfter (load (Path.ofString second))
          ⟨.empty .always, asideHandedIn.host⟩)).map Finding.document ≠
        (get (Path.ofString "") asideHandedIn).map Finding.document := by
    intro path hpath heq
    have hlength := congrArg List.length heq
    rw [hnone path hpath, List.length_map, List.length_map, hcount] at hlength
    cases hlength
  rw [List.forall_mem_cons, List.forall_mem_singleton] at hdiffers
  exact ⟨_, kept, asideSession, asideHandedIn, _, grounded_of_cwd rfl rfl, hraw,
    by decide +kernel, hkey, hingest, hload, hdiffers.1, hdiffers.2⟩

/-- **One key does not make one place**: behind a link, and behind what is missing, a double dot
leads elsewhere than its text says. -/
theorem key_without_place : Divided "" "l/.." ∧ Divided "" "m/.." :=
  ⟨divided_aside _ (by simp), divided_aside _ (by simp)⟩

end Store
end SourceDrift
