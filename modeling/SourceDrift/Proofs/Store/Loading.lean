/-
Loading fills in the digests that are missing, and does nothing else.

Three tests have to agree for that: whether some finding lacks a digest at all, which mappings a
recording of what is missing writes, and whether it has written any. Where they do, the file is
written again exactly if there was a digest to fill in. Then what is written differs from what
was there: read again, it would have no digest left to fill in.
-/
import SourceDrift.Proofs.Store.Mirror
import SourceDrift.Proofs.Sync.Recording

set_option autoImplicit false

namespace SourceDrift

open Sync

/-- Whether findings have a digest to fill in: one that is missing, of a file that can be read. -/
def Lacking (h : Host) (root : Path) (fs : List Finding) : Prop :=
  ∃ f ∈ fs, ∃ m ∈ mappings f, ∃ bytes, Due h root true m bytes

instance (h : Host) (root : Path) (fs : List Finding) : Decidable (Lacking h root fs) :=
  inferInstanceAs (Decidable (∃ f ∈ fs, ∃ m ∈ mappings f, _))

namespace Sync

variable {h : Host} {root : Path} {fs : List Finding}

/-- **A recording of what is missing counts nothing exactly if there is nothing to fill in.** -/
theorem count_capture_ne_zero (hread : (Store.sources h).Consistent (files root fs)) :
    (capture (Store.sources h) root true fs).2 ≠ 0 ↔ Lacking h root fs := by
  rw [(recording_exact true hread).2, ← Nat.pos_iff_ne_zero, List.countP_pos_iff, Lacking]
  simp only [List.mem_flatMap, decide_eq_true_iff]
  constructor
  · rintro ⟨m, ⟨f, hf, hm⟩, hdue⟩
    exact ⟨f, hf, m, hm, hdue⟩
  · rintro ⟨f, hf, m, hm, hdue⟩
    exact ⟨m, ⟨f, hf, hm⟩, hdue⟩

/-- **After it nothing is left to fill in.** -/
theorem not_lacking_capture (hread : (Store.sources h).Consistent (files root fs)) :
    ¬Lacking h root (capture (Store.sources h) root true fs).1 := by
  rw [capture_eq_map true hread]
  rintro ⟨g, hg, m, hm, bytes, hmissing, hfile⟩
  obtain ⟨f, -, rfl⟩ := List.mem_map.1 hg
  rw [mappings_recordFinding] at hm
  obtain ⟨m, -, rfl⟩ := List.mem_map.1 hm
  have hnone := hmissing rfl
  rw [digest_recordMapping_missing, Option.or_eq_none_iff, Option.map_eq_none_iff] at hnone
  rw [file_recordMapping, ← read_sources, hnone.2] at hfile
  cases hfile

end Sync

namespace Repository

variable {h h' : Host} {root : Path} {fs gs : List Finding} {text : String} {bytes : List UInt8}
  {u : Unit} {room : Nat}

/-- What is read again has a digest to fill in only if what was written has. -/
theorem lacking_of_decode (hwell : ∀ g ∈ gs, g.WellFormed) (hencode : encode gs = .ok text)
    (hroom : Platform.assuredLevels ≤ room) (hdecode : decode room text = .ok fs)
    (hlacking : Lacking h root fs) : Lacking h root gs := by
  rw [(decode_of_encode hroom hwell hencode).2, readFindings_eq_ok,
    List.forall₂_map_left_iff] at hdecode
  obtain ⟨f, hf, m, hm, hdue⟩ := hlacking
  obtain ⟨g, hg, hread⟩ := Checked.exists_of_mem_forall₂ hdecode hf
  rw [mappings, Finding.mapped_of_reread (hwell g hg) hread, Finding.mapped_stored,
    List.map_map] at hm
  obtain ⟨p, hp, rfl⟩ := List.mem_map.1 hm
  -- Dropping numbers from the extras of a mapping changes neither its digest nor its file.
  exact ⟨g, hg, p.2, List.mem_map_of_mem hp, hdue⟩

/-- **Findings with their digests filled in have another text** than those that lack them. -/
theorem ne_of_lacking (hwell : ∀ g ∈ gs, g.WellFormed) (hencode : encode gs = .ok text)
    (hnone : ¬Lacking h root gs) {old : String} (hold : Utf8.decodeText bytes = .ok old)
    (hroom : Platform.assuredLevels ≤ room) (hdecode : decode room old = .ok fs)
    (hlacking : Lacking h root fs) : Utf8.encode text ≠ bytes := by
  rintro rfl
  obtain ⟨hutf8, -⟩ := decode_of_encode hroom hwell hencode
  obtain rfl := Except.ok.inj (hutf8.symm.trans hold)
  exact hnone (lacking_of_decode hwell hencode hroom hdecode hlacking)

end Repository

namespace Store

variable {root : Path} {loaded : List Finding} {s s' : Session} {h₁ : Host}

/-- **Loading writes what it puts into memory**, if it has filled in any digest. -/
theorem written_of_load {u : Unit} (hstored : Repository.load root s.host = .ok (some loaded) h₁)
    (hload : load root s = .ok u s') :
    get root s' = (capture (sources h₁) root true loaded).1 ∧
      ((capture (sources h₁) root true loaded).2 = 0 ∧ s'.host = h₁ ∨
        (capture (sources h₁) root true loaded).2 ≠ 0 ∧
          Repository.save root (get root s') h₁ = .ok () s'.host) := by
  have hkept := get_of_load (loadStored_of_load hstored) hload
  refine ⟨hkept, ?_⟩
  rw [hkept]
  obtain ⟨_, _, gs, s₂, hstored', hfilled, rfl⟩ := load_eq_ok.1 hload
  rw [loadStored_of_load hstored] at hstored'
  cases hstored'
  obtain ⟨rfl, -, hwritten⟩ := backfill_eq_ok hfilled
  exact hwritten

/-- **Loading fills in digests.** Each finding that is stored is there afterwards, in order, as it
was stored, but with the digests that it lacked and whose files can be read. The file is written
again exactly if there were such digests, and then with what is in memory; if there were none,
nothing has happened to the files but that the lock was taken. Names with one key are taken to
read alike, in the world that the lock was taken in. -/
theorem loading_fills_in {path : String} (hcwd : s.host.files.Grounded s.host.cwd)
    (hstored : Repository.load (Path.ofString path) s.host = .ok (some loaded) h₁)
    (hread : (sources h₁).Consistent (Sync.files (Path.ofString path) loaded))
    (hload : load (Path.ofString path) s = .ok () s') :
    Host.extending.Allows s.host h₁ ∧
      ∃ bytes text document items,
        s.host.files.readFile s.host.cwd (Storage.results (Path.ofString path)) = .ok bytes ∧
        Utf8.decodeText bytes = .ok text ∧ Json.read s.host.room text = .ok document ∧
        Analyzer.findingItems document = .ok items ∧
        List.Forall₂ (fun item f => Finding.ofJson item = .ok f) items loaded ∧
        List.Forall₂ (RecordsFinding h₁ (Path.ofString path) true) loaded
          (get (Path.ofString path) s') ∧
        ((∃ bytes', s'.host.files.readFile s'.host.cwd (Storage.results (Path.ofString path)) =
            .ok bytes' ∧ bytes' ≠ bytes) ↔ Lacking h₁ (Path.ofString path) loaded) ∧
        (Lacking h₁ (Path.ofString path) loaded →
          Repository.Holds (Path.ofString path) (get (Path.ofString path) s') s'.host) ∧
        (¬Lacking h₁ (Path.ofString path) loaded → s'.host = h₁) := by
  have hroot := Path.proper_ofString path
  generalize Path.ofString path = root at hroot hstored hread hload ⊢
  -- What was stored can still be read where the lock is taken.
  obtain ⟨bytes, text, hbytes, htext, hdecode⟩ := Repository.readFile_of_load hstored
  obtain ⟨document, items, hdocument, hitems, hfindings⟩ := Repository.decode_eq_ok.1 hdecode
  obtain ⟨-, hlock, -⟩ := Repository.load_eq_some.1 hstored
  have hextends := Host.extends_of_lock hlock
  have hcwd₁ : h₁.cwd = s.host.cwd := Host.cwd_of_lock hlock
  have hbytes₁ : h₁.files.readFile h₁.cwd (Storage.results root) = .ok bytes := by
    rw [hcwd₁, FileTree.readFile_eq_ok]
    exact FileTree.status_mono hextends (FileTree.readFile_eq_ok.1 hbytes)
  obtain ⟨hrecorded, -⟩ := recording_exact true hread
  have hcount := count_capture_ne_zero hread
  have hnone := not_lacking_capture hread
  have hwell := wellFormed_redigested (capture_redigested (sources h₁) root true loaded)
    (Repository.wellFormed_of_decode hdecode)
  obtain ⟨hkept, hwritten⟩ := written_of_load hstored hload
  rw [← hkept] at hrecorded hnone hwell
  refine ⟨⟨hcwd₁, hextends⟩, bytes, text, document, items, hbytes, htext, hdocument, hitems,
    Repository.readFindings_eq_ok.1 hfindings, hrecorded, ?_⟩
  -- It is written if something has been counted, and that is if something was lacking.
  rcases hwritten with ⟨hzero, hhost⟩ | ⟨hsome, hsave⟩
  · have hnot : ¬Lacking h₁ root loaded := fun hlacking => hcount.2 hlacking hzero
    refine ⟨iff_of_false ?_ hnot, fun hlacking => absurd hlacking hnot, fun _ => hhost⟩
    rintro ⟨bytes', hbytes', hne⟩
    rw [hhost, hbytes₁] at hbytes'
    exact absurd (Except.ok.inj hbytes').symm hne
  · have hlacking := hcount.1 hsome
    have hgrounded : h₁.files.Grounded h₁.cwd := by
      rw [hcwd₁]
      exact hcwd.mono hextends.waysIn.directory
    have hholds := Repository.holds_of_resave hroot hgrounded hbytes₁ hsave
    refine ⟨iff_of_true ?_ hlacking, fun _ => hholds, fun hnot => absurd hlacking hnot⟩
    obtain ⟨text', hencode, hread'⟩ := hholds
    exact ⟨_, hread', Repository.ne_of_lacking hwell hencode hnone htext
      s.host.assuredLevels_le_room
      hdecode hlacking⟩

/-- The text of a finding that points at two files. -/
def undigestedText : String :=
  "[\x7b\"elements\":[\x7b\"source_mapping\":\x7b\"filename_relative\":\"a\"\x7d\x7d," ++
    "\x7b\"source_mapping\":\x7b\"filename_relative\":\"b\"\x7d\x7d]\x7d]"

/-- A session in a directory where that finding is stored, and the first of the files is there. -/
def undigestedSession : Session :=
  ⟨.empty .always, worldOf [(["w", ".slither"], .directory),
    (["w", ".slither", "analysis-results.json"], .file (Utf8.encode undigestedText)),
    (["w", "a"], .file [97])]⟩

/-- What that session loads. -/
def undigestedLoaded : List Finding :=
  (Repository.decode undigestedSession.host.room undigestedText).toOption.getD []

/-- That session after the lock has been taken. -/
def undigestedLocked : Session := lockedSession undigestedSession.host

/-- That session after it has loaded. -/
def undigestedFilled : Session := sessionAfter (load (Path.ofString "")) undigestedSession

/-- The digest of the first file is filled in and written; that of the second is still missing. -/
theorem loading_fills_in_undigested :
    ((get (Path.ofString "") undigestedFilled).flatMap mappings).map (·.digest) =
        [some (Digest.ofSlice [97] 0 0), none] ∧
      Lacking undigestedLocked.host (Path.ofString "") undigestedLoaded ∧
      List.Forall₂ (RecordsFinding undigestedLocked.host (Path.ofString "") true) undigestedLoaded
        (get (Path.ofString "") undigestedFilled) ∧
      Repository.Holds (Path.ofString "") (get (Path.ofString "") undigestedFilled)
        undigestedFilled.host := by
  have hbytes : undigestedSession.host.files.readFile undigestedSession.host.cwd
      (Storage.results (Path.ofString "")) = .ok (Utf8.encode undigestedText) :=
    eq_ok_of_toOption (by decide +kernel)
  have htext : Utf8.decodeText (Utf8.encode undigestedText) = .ok undigestedText :=
    eq_ok_of_toOption (by decide +kernel)
  -- The decoded text is evaluated once, to what the definition of the findings says.
  have hdecode : Repository.decode undigestedSession.host.room undigestedText =
      .ok undigestedLoaded := by
    obtain ⟨fs, hfs⟩ := Option.isSome_iff_exists.1 (show
      (Repository.decode undigestedSession.host.room undigestedText).toOption.isSome by
        decide +kernel)
    rw [undigestedLoaded, hfs]
    exact eq_ok_of_toOption hfs
  have hstored := Repository.load_of_readFile hbytes htext hdecode
    (lock_lockedSession (h := undigestedSession.host) (by decide +kernel))
  have hfilled : ∃ u, load (Path.ofString "") undigestedSession = .ok u undigestedFilled :=
    eq_ok_of_answer (by decide +kernel)
  obtain ⟨_, hload⟩ := hfilled
  have hlacking : Lacking undigestedLocked.host (Path.ofString "") undigestedLoaded := by
    decide +kernel
  have hread : (sources undigestedLocked.host).Consistent
      (files (Path.ofString "") undigestedLoaded) := by
    decide +kernel
  have hcwd : undigestedSession.host.files.Grounded undigestedSession.host.cwd :=
    grounded_of_cwd rfl rfl
  obtain ⟨-, _, _, _, _, -, -, -, -, -, hrecorded, -, hholds, -⟩ :=
    loading_fills_in hcwd hstored hread hload
  exact ⟨by decide +kernel, hlacking, hrecorded, hholds hlacking⟩

end Store
end SourceDrift
