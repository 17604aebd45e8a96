/-
No store ever keeps the same finding twice.

Duplicates are left out when findings are handed in, and not when they are loaded. So that a
load brings none, the stored findings must have been without duplicates, and reading them
must not make two of them one. The first is carried along the run as a property of every text
that a store has written; the second is that a canonical form survives being stored and read,
whatever else of the finding does not.
-/
import SourceDrift.Proofs.Store.Encoding
import SourceDrift.Proofs.Store.Runs

set_option autoImplicit false

namespace SourceDrift

namespace Repository

variable {fs gs : List Finding} {bytes : List UInt8} {text : String} {room : Nat}

/-- No findings are decoded from nothing. -/
theorem decode_empty_ne_ok : decode room "" ≠ .ok gs := by
  intro h
  obtain ⟨v, _, hread, -, -⟩ := decode_eq_ok.1 h
  cases hread

/-- **What is decoded has the canonical forms of what was written.** -/
theorem map_canonical_of_written (hfs : ∀ f ∈ fs, f.WellFormed) (hwritten : Written fs bytes)
    (htext : Utf8.decodeText bytes = .ok text) (hroom : Platform.assuredLevels ≤ room)
    (hdecode : decode room text = .ok gs) :
    gs.map Finding.canonical = fs.map Finding.canonical := by
  rcases hwritten with rfl | ⟨written, hencode, rfl⟩
  · cases htext
    exact absurd hdecode decode_empty_ne_ok
  · rw [(decode_of_encode hroom hfs hencode).1] at htext
    cases htext
    exact map_canonical_of_decode hroom hfs hencode hdecode

/-- **Saving and loading keep the canonical forms**, if the file still reads as it was saved
and the load accepts it. -/
theorem map_canonical_of_load {root : Path} {h h₁ h₂ h₃ : Host} {u : Unit} (hroot : root.Proper)
    (hcwd : h.files.Grounded h.cwd) (hfs : ∀ f ∈ fs, f.WellFormed)
    (hsave : save root fs h = .ok u h₁)
    (hsame : h₂.files.readFile h₂.cwd (Storage.results root) =
      h₁.files.readFile h₁.cwd (Storage.results root))
    (hload : load root h₂ = .ok (some gs) h₃) :
    gs.map Finding.canonical = fs.map Finding.canonical := by
  obtain ⟨text, hencode, hstored⟩ := stored_of_save hroot hcwd hsave
  obtain ⟨bytes, _, hread, htext, hdecode⟩ := readFile_of_load hload
  rw [hsame] at hread
  have hwritten : Written fs bytes := .inr ⟨text, hencode, hstored.readFile hread⟩
  exact map_canonical_of_written hfs hwritten htext h₂.assuredLevels_le_room hdecode

end Repository

namespace Store

/-- Whether findings are such as are read, no two of them with one canonical form. -/
structure WithoutDuplicates (fs : List Finding) : Prop where
  wellFormed : ∀ f ∈ fs, f.WellFormed
  nodup : (fs.map Finding.canonical).Nodup

/-- **Being without duplicates is kept by the operations.** -/
theorem kept_withoutDuplicates : Kept WithoutDuplicates where
  nil := ⟨kept_wellFormed.nil, List.nodup_nil⟩
  handedIn hitems := ⟨kept_wellFormed.handedIn hitems, Finding.nodup_distinct _⟩
  redigested h hfs := by
    refine ⟨kept_wellFormed.redigested h hfs.wellFormed, ?_⟩
    rw [Checked.map_eq_of_forall₂ (fun _ _ _ h => h.canonical) h]
    exact hfs.nodup
  validated src root changed hfs := by
    refine ⟨kept_wellFormed.validated src root changed hfs.wellFormed, ?_⟩
    rw [Sync.map_canonical_validate]
    exact hfs.nodup

/-- Whether a workspace's stored findings, if they can be read, are such as a store has
written. -/
def OwnResults (w : World) (root : Path) : Prop :=
  ∀ bytes, w.host.files.readFile w.host.cwd (Storage.results root) = .ok bytes → w.written bytes

/-- What a store has written is loaded without duplicates. -/
theorem withoutDuplicates_of_load {w : World} (hw : w.Keeps WithoutDuplicates) {root : Path}
    {fs : List Finding} {h' : Host} (hown : OwnResults w root)
    (hload : Repository.load root w.host = .ok (some fs) h') : WithoutDuplicates fs := by
  obtain ⟨bytes, text, hread, htext, hdecode⟩ := Repository.readFile_of_load hload
  refine ⟨Repository.wellFormed_of_decode hdecode, ?_⟩
  rcases hw.written bytes (hown bytes hread) with rfl | ⟨gs, hgs, hwritten⟩
  · cases htext
    exact absurd hdecode Repository.decode_empty_ne_ok
  · rw [Repository.map_canonical_of_written hgs.wellFormed hwritten htext
      w.host.assuredLevels_le_room hdecode]
    exact hgs.nodup

/-- Validating keeps the canonical forms of every workspace, whether or not it succeeds. -/
theorem map_canonical_run_validate (root other : Path) (changed : Option Path) (s : Session) :
    (get other ((Operation.validate root changed).run s)).map Finding.canonical =
      (get other s).map Finding.canonical := by
  have hdoes := Operation.does_run (.validate root changed) s
  generalize (Operation.validate root changed).run s = s' at hdoes ⊢
  have hkey : s'.host.key other = s.host.key other := by rw [hdoes.host.1]; rfl
  rw [get, get, hkey]
  rcases hdoes.store with heq | ⟨hclear, -⟩ | ⟨fs, hfs, heq⟩
  · rw [heq]
  · cases hclear
  · rw [heq, show (Operation.validate root changed).root = root from rfl]
    -- The workspace asked for may be the one that is validated, by another spelling of its path.
    by_cases hother : s.host.key other = s.host.key root
    · rw [hother, getKey_put, show fs = _ from hfs, Sync.map_canonical_validate]
      rfl
    · rw [getKey_put_of_ne hother]

/-- **No structural duplicates, ever, and content is never altered.** In every run of stores that
load what stores have written, no two findings that a store keeps for a workspace have one
canonical form. Validating changes no canonical form for any store and workspace, nor does
recording, nor saving and loading. -/
theorem no_structural_duplicates {w : World} (hw : Reached OwnResults w) :
    (∀ name root, ((get root (w.session name)).map Finding.canonical).Nodup) ∧
      (∀ name other root root' changed,
        (get root' ((w.step name (.validate root changed)).session other)).map Finding.canonical =
          (get root' (w.session other)).map Finding.canonical) ∧
      (∀ src root onlyMissing fs,
        (Sync.capture src root onlyMissing fs).1.map Finding.canonical = fs.map Finding.canonical) ∧
      (∀ src root changed fs,
        (Sync.validate src root changed fs).1.map Finding.canonical = fs.map Finding.canonical) ∧
      ∀ path fs gs (h h₁ h₂ h₃ : Host), h.files.Grounded h.cwd → (∀ f ∈ fs, f.WellFormed) →
        Repository.save (Path.ofString path) fs h = .ok () h₁ →
        h₂.files.readFile h₂.cwd (Storage.results (Path.ofString path)) =
          h₁.files.readFile h₁.cwd (Storage.results (Path.ofString path)) →
        Repository.load (Path.ofString path) h₂ = .ok (some gs) h₃ →
        gs.map Finding.canonical = fs.map Finding.canonical := by
  refine ⟨fun name root => ?_, fun name other root root' changed => ?_, Sync.map_canonical_capture,
    Sync.map_canonical_validate, fun path fs gs h h₁ h₂ h₃ hcwd hfs hsave hsame hload => ?_⟩
  · have hkeeps : w.Keeps WithoutDuplicates := hw.keeps kept_withoutDuplicates
      fun w hw root fs h' hown hload => withoutDuplicates_of_load hw hown hload
    exact (hkeeps.memory name _).nodup
  · by_cases hother : other = name
    · rw [hother, World.session_step_self]
      exact map_canonical_run_validate root root' changed (w.session name)
    · -- The other stores keep their memories, and the world its directory, so the keys are
      -- the same.
      have hhost := (Operation.does_run (.validate root changed) (w.session name)).host
      have hkey : (w.step name (.validate root changed)).host.key root' = w.host.key root' := by
        rw [World.step, hhost.1]
        rfl
      rw [get, get, World.session, World.session, World.stores_step_of_ne hother, hkey]
  · exact Repository.map_canonical_of_load (Path.proper_ofString path) hcwd hfs hsave hsame hload

/-- Two documents of one finding, and one of another that hides its state. -/
def repeated : List Json :=
  [.obj [("check", .str "x")], .obj [("_ext_in_sync", .bool true), ("check", .str "x")],
    .obj [("_ext_in_sync", .null), ("in_sync", .bool false)]]

/-- The world after one store has been handed these documents. -/
def handedInWorld : World :=
  freshWorld.step "first" (.ingest (Path.ofString "") (repeated.map .document))

/-- The world after another store has loaded and validated what the first has written. -/
def reloadedWorld : World :=
  (handedInWorld.step "second" (.load (Path.ofString ""))).step "second"
    (.validate (Path.ofString "") none)

/-- Where the first store has put the findings. -/
def resultsPlace : Place := ["w", ".slither", "analysis-results.json"]

/-- What is loaded in a run is what was kept: two findings, one of which has come by a state on
the way. -/
theorem no_structural_duplicates_reloaded :
    Reached OwnResults reloadedWorld ∧
      ((get (Path.ofString "") (reloadedWorld.session "second")).map Finding.canonical).Nodup ∧
      (get (Path.ofString "") (reloadedWorld.session "second")).map Finding.canonical =
        ["\x7b\"check\":\"x\"\x7d", "\x7b\x7d"] := by
  have hkeys : ∀ v ∈ repeated, v.hasUniqueKeys = true := by decide
  have hraw : ∀ item ∈ repeated.map Incoming.document, item.WellFormed := by
    intro item hitem
    obtain ⟨v, hv, rfl⟩ := List.mem_map.1 hitem
    exact hkeys v hv
  -- There was no file before, so that the one that is loaded is the stores' own.
  have hown : OwnResults handedInWorld (Path.ofString "") := by
    intro bytes hread
    have hplace : (handedInWorld.host.files.readFile handedInWorld.host.cwd
        (Storage.results (Path.ofString ""))).toOption.map Node.file =
          handedInWorld.host.files.node? resultsPlace := by decide +kernel
    have hbefore : freshWorld.host.files.node? resultsPlace = none := by decide +kernel
    rw [hread] at hplace
    refine .inr ⟨resultsPlace, hplace.symm, ?_⟩
    rw [hbefore]
    exact (Option.some_ne_none _).symm
  have hreached : Reached OwnResults reloadedWorld :=
    .operate "second" (.validate _ _) (.operate "second" (.load _) (.operate "first" (.ingest _ _)
      (reached_fresh _) hraw) hown) trivial
  exact ⟨hreached, (no_structural_duplicates hreached).1 "second" (Path.ofString ""),
    by decide +kernel⟩

end Store
end SourceDrift
