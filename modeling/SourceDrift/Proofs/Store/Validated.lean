/-
What has been validated is loaded as it is kept.

A validation of everything leaves no state unknown, so that no finding hides its state, and it
always writes, because something has been checked. What is in memory has been handed in, or
loaded from a file of whatever origin, or validated before; in each case it is such as is
read. So the stored text reads as what is kept, in any state that stores can come to, and one
thing is left that can go wrong: the write may take away the way to what it has written.
-/
import SourceDrift.Proofs.Store.Encoding
import SourceDrift.Proofs.Store.Runs

set_option autoImplicit false

namespace SourceDrift

/-! ## Findings as they are stored -/

theorem Element.mapping_dropNonFinite (e : Element) :
    e.dropNonFinite.mapping = e.mapping.map SourceMapping.dropNonFinite := by
  have hgiven : e.dropNonFinite.sourceMapping =
      e.sourceMapping.map SourceMapping.dropNonFinite := by
    rw [sourceMapping, sourceMapping, dropNonFinite]
    cases e.mapping? with
    | none => rfl
    | some o => rfl
  rw [mapping, mapping, hgiven]
  cases e.sourceMapping with
  | none => rfl
  | some m =>
    have hmapped : m.dropNonFinite.isMapped = m.isMapped := rfl
    by_cases hm : m.isMapped = true
    · rw [Option.map_some, Option.filter_some, Option.filter_some, hmapped, if_pos hm, if_pos hm]
      rfl
    · rw [Option.map_some, Option.filter_some, Option.filter_some, hmapped, if_neg hm, if_neg hm]
      rfl

namespace Finding

/-- The places that a stored finding points at, with their indices, are those of the finding. -/
theorem mapped_stored (f : Finding) :
    f.stored.mapped = f.mapped.map fun p => (p.1, p.2.dropNonFinite) := by
  have hfrom : ∀ (es : List Element) (i : Nat), mappedFrom i (es.map Element.dropNonFinite) =
      (mappedFrom i es).map fun p => (p.1, p.2.dropNonFinite) := by
    intro es
    induction es with
    | nil => exact fun _ => rfl
    | cons e rest ih =>
      intro i
      rw [List.map_cons, mappedFrom, mappedFrom, e.mapping_dropNonFinite]
      cases e.mapping with
      | none => exact ih (i + 1)
      | some m =>
        rw [Option.map_some]
        dsimp only
        rw [ih (i + 1), List.map_cons]
  have helements : f.stored.elements = f.elements.map Element.dropNonFinite := by
    rw [elements, elements, stored]
    cases f.elements? with
    | none => rfl
    | some es => rfl
  rw [mapped, mapped, helements]
  exact hfrom f.elements 0

theorem canonical_stored (f : Finding) : f.stored.canonical = f.canonical := by
  rw [canonical, canonical, content_stored, document_stored]

/-- Whether a finding that was loaded is one that was kept: with its document, its state, its
digests and its canonical form, and with the places that it points at, but for `null` in the
place of numbers that no document holds. -/
structure Survives (kept loaded : Finding) : Prop where
  document : loaded.document = kept.document
  sync : loaded.sync = kept.sync
  digests : loaded.mapped.map (fun p => p.2.digest) = kept.mapped.map fun p => p.2.digest
  canonical : loaded.canonical = kept.canonical
  mapped : loaded.mapped = kept.mapped.map fun p => (p.1, p.2.dropNonFinite)

theorem survives_stored (f : Finding) : f.Survives f.stored where
  document := f.document_stored
  sync := f.sync_stored
  digests := by
    rw [f.mapped_stored, List.map_map]
    rfl
  canonical := f.canonical_stored
  mapped := f.mapped_stored

end Finding

/-! ## Validating everything -/

/-- A validation of everything checks every finding. -/
theorem Sync.checked_validate (src : Sources) (root : Path) (fs : List Finding) :
    (validate src root none fs).2.checked = fs.length := by
  have hall : ∀ (cache : Cache) (report : Report),
      (validateFindings src root none cache report fs).2.checked = report.checked + fs.length := by
    induction fs with
    | nil => exact fun _ _ => rfl
    | cons f rest ih =>
      intro cache report
      rw [validateFindings, isConcerned, if_pos rfl]
      obtain ⟨same, after⟩ := unchanged src cache (targets root f)
      dsimp only
      rw [ih, List.length_cons]
      have hchecked : (report.addChecked same).checked = report.checked + 1 := by
        cases same <;> rfl
      omega
  rw [validate, Option.map_none, hall]
  exact Nat.zero_add _

namespace Repository

/-- **What is saved with no state hidden is loaded**, if the workspace's directory is still
reached. -/
theorem load_of_save {root : Path} {fs : List Finding} {h h' : Host} {u : Unit}
    (hroot : root.Proper)
    (hcwd : h.files.Grounded h.cwd) (hfs : ∀ f ∈ fs, f.WellFormed ∧ ¬f.HidesState)
    (hsave : save root fs h = .ok u h') :
    (∃ gs h'', load root h' = .ok (some gs) h'' ∧ List.Forall₂ Finding.Survives fs gs) ↔
      h'.files.isDirectory? h'.cwd (Storage.directory root) = .ok true := by
  obtain ⟨text, hencode, hstored⟩ := stored_of_save hroot hcwd hsave
  constructor
  · rintro ⟨gs, h'', hload, -⟩
    exact isDirectory_of_load hstored hload
  · intro hdirectory
    obtain ⟨hutf8, hdecode⟩ :=
      decode_of_encode h'.assuredLevels_le_room (fun f hf => (hfs f hf).1) hencode
    rw [readFindings_document hfs] at hdecode
    refine ⟨fs.map Finding.stored, h', ?_, ?_⟩
    · rw [load_of_stored hroot hstored hutf8 hdirectory, hdecode]
    · rw [List.forall₂_map_right_iff, List.forall₂_same]
      exact fun f _ => f.survives_stored

end Repository

namespace Store

/-- **Validating everything saves what the pass answers**, and keeps it. -/
theorem save_of_validate {root : Path} {report : Sync.Report} {s s' : Session}
    (hkept : get root s ≠ []) (h : validate root none s = .ok report s') :
    Repository.save root (get root s') s.host = .ok () s'.host := by
  have hchecked := Sync.checked_validate (sources s.host) root (get root s)
  have hlength : (get root s).length ≠ 0 := fun hnil => hkept (List.length_eq_zero_iff.1 hnil)
  rw [validate_eq_ok h]
  cases hpass : Sync.validate (sources s.host) root none (get root s) with
  | mk fs found =>
    rw [hpass] at hchecked
    -- Every finding has been checked and there is one, so the branch without a write is not taken.
    rw [validate_of_ne_nil hkept hpass, if_neg (by rw [hchecked]; exact hlength)] at h
    cases hsave : Repository.save root fs s.host with
    | ok u h' =>
      rw [hsave] at h
      cases h
      rfl
    | error e h' =>
      rw [hsave] at h
      cases h

/-- In every run what is kept is such as is read, wherever it was loaded from. -/
theorem Reached.wellFormed {mayLoad : World → Path → Prop} {w : World} (hw : Reached mayLoad w)
    (name : String) (root : Path) : ∀ f ∈ get root (w.session name), f.WellFormed := by
  have hkeeps : w.Keeps fun fs => ∀ f ∈ fs, f.WellFormed := by
    refine hw.keeps kept_wellFormed (fun w _ root fs h' _ hload => ?_)
    obtain ⟨_, _, _, _, hdecode⟩ := Repository.readFile_of_load hload
    exact Repository.wellFormed_of_decode hdecode
  exact hkeeps.memory name _

/-- **What has been validated survives a restart.** In every state that stores can come to,
loading after a validation of everything gives the findings that are kept, in order, exactly
if the workspace's directory is still where its path leads. -/
theorem validated_state_survives {mayLoad : World → Path → Prop} {w : World} {name path : String}
    {report : Sync.Report} {s' : Session} (hw : Reached mayLoad w)
    (hcwd : w.host.files.Grounded w.host.cwd)
    (hkept : get (Path.ofString path) (w.session name) ≠ [])
    (hvalidate : validate (Path.ofString path) none (w.session name) = .ok report s') :
    (∃ fs h', Repository.load (Path.ofString path) s'.host = .ok (some fs) h' ∧
        List.Forall₂ Finding.Survives (get (Path.ofString path) s') fs) ↔
      s'.host.files.isDirectory? s'.host.cwd (Storage.directory (Path.ofString path)) =
      .ok true := by
  have hroot := Path.proper_ofString path
  generalize Path.ofString path = root at hroot hkept hvalidate ⊢
  have hsave := save_of_validate hkept hvalidate
  have hfs : ∀ f ∈ get root s', f.WellFormed ∧ ¬f.HidesState := by
    intro f hf
    rw [validate_eq_ok hvalidate] at hf
    refine ⟨wellFormed_validated _ _ _ (hw.wellFormed name root) f hf, ?_⟩
    -- A state is hidden only while it is unknown, and no state is after a validation.
    rintro ⟨hunknown, -⟩
    exact Sync.sync_validate_ne_unknown _ _ _ f hf hunknown
  exact Repository.load_of_save hroot hcwd hfs hsave

/-- A document whose extras go by the state's other name and hold a number that no document can
hold. -/
def hidingDocument : Json :=
  .obj [("check", .str "x"), ("_ext_in_sync", .null), ("in_sync", .int 5), ("n", .float .nan)]

/-- The world after a store has been handed that document. -/
def hidingWorld : World :=
  freshWorld.step "first" (.ingest (Path.ofString "") [.document hidingDocument])

/-- The store's session after it has validated the workspace. -/
def hidingValidated : Session :=
  sessionAfter (validate (Path.ofString "") none) (hidingWorld.session "first")

/-- An extra by the name of the state is loaded as an extra once the state is known. -/
theorem validated_state_survives_hidden :
    (get (Path.ofString "") hidingValidated).map Finding.sync = [.inSync] ∧
      ∃ fs h', Repository.load (Path.ofString "") hidingValidated.host = .ok (some fs) h' ∧
        List.Forall₂ Finding.Survives (get (Path.ofString "") hidingValidated) fs := by
  have hraw : ∀ item ∈ [Incoming.document hidingDocument], item.WellFormed := by
    intro item hitem
    rw [List.mem_singleton.1 hitem]
    exact (by decide : hidingDocument.hasUniqueKeys = true)
  have hreached : Reached (fun _ _ => True) hidingWorld :=
    .operate "first" (.ingest _ _) (reached_fresh _) hraw
  have hcwd : hidingWorld.host.files.Grounded hidingWorld.host.cwd :=
    grounded_of_cwd (by decide +kernel) (by decide +kernel)
  have hkept : get (Path.ofString "") (hidingWorld.session "first") ≠ [] := by
    intro hnil
    exact absurd (congrArg List.length hnil) (by decide +kernel)
  obtain ⟨report, hvalidate⟩ : ∃ report, validate (Path.ofString "") none
      (hidingWorld.session "first") = .ok report hidingValidated :=
    eq_ok_of_answer (by decide +kernel)
  have hdirectory := eq_ok_of_toOption (show (hidingValidated.host.files.isDirectory?
    hidingValidated.host.cwd (Storage.directory (Path.ofString ""))).toOption = some true by
      decide +kernel)
  exact ⟨by decide +kernel, (validated_state_survives hreached hcwd hkept hvalidate).2 hdirectory⟩

/-- The world with a link back to the working directory where the findings are stored. -/
def World.linked (w : World) : World :=
  { w with host := { w.host with
      files := (w.host.files.insert ["w", ".slither"] .directory).insert
        ["w", ".slither", "analysis-results.json"] (.link "..") } }

/-- The path to the working directory by way of that link. -/
def linkedPath : String := ".slither/analysis-results.json"

/-- The world after a store has been handed a finding by way of the link. The write has put a
file in the place of the link, and the outside has put the link there again. -/
def linkedWorld : World :=
  (freshWorld.linked.step "first"
    (.ingest (Path.ofString linkedPath) [.document (.obj [("check", .str "x")])])).linked

/-- The store's session after it has validated the workspace by way of the link. -/
def linkedValidated : Session :=
  sessionAfter (validate (Path.ofString linkedPath) none) (linkedWorld.session "first")

/-- A write may take away the way to what it has written: nothing is loaded by a path that runs
through a link in the place of the stored findings. -/
theorem validated_state_lost_behind_link :
    ∃ (w : World) (name path : String) (report : Sync.Report) (s' : Session),
      Reached (fun _ _ => True) w ∧ w.host.files.Grounded w.host.cwd ∧
        get (Path.ofString path) (w.session name) ≠ [] ∧
        validate (Path.ofString path) none (w.session name) = .ok report s' ∧
        ¬∃ fs h', Repository.load (Path.ofString path) s'.host = .ok (some fs) h' ∧
          List.Forall₂ Finding.Survives (get (Path.ofString path) s') fs := by
  have hraw : ∀ item ∈ [Incoming.document (.obj [("check", .str "x")])], item.WellFormed := by
    intro item hitem
    rw [List.mem_singleton.1 hitem]
    exact (by decide : (Json.obj [("check", .str "x")]).hasUniqueKeys = true)
  have hreached : Reached (fun _ _ => True) linkedWorld :=
    .outside _ (.operate "first" (.ingest _ _) (.outside _ (reached_fresh _)) hraw)
  have hcwd : linkedWorld.host.files.Grounded linkedWorld.host.cwd :=
    grounded_of_cwd (by decide +kernel) (by decide +kernel)
  have hkept : get (Path.ofString linkedPath) (linkedWorld.session "first") ≠ [] := by
    intro hnil
    exact absurd (congrArg List.length hnil) (by decide +kernel)
  obtain ⟨report, hvalidate⟩ : ∃ report, validate (Path.ofString linkedPath) none
      (linkedWorld.session "first") = .ok report linkedValidated :=
    eq_ok_of_answer (by decide +kernel)
  refine ⟨linkedWorld, "first", linkedPath, report, linkedValidated, hreached, hcwd, hkept,
    hvalidate, ?_⟩
  rintro ⟨fs, h', hload, -⟩
  -- The path goes on from a link that is a file now, so that nothing is found there.
  have hmissing : (linkedValidated.host.files.exists? linkedValidated.host.cwd
      (Storage.results (Path.ofString linkedPath))).toOption = some false := by decide +kernel
  rw [(Repository.load_eq_some.1 hload).1] at hmissing
  cases hmissing

end Store
end SourceDrift
