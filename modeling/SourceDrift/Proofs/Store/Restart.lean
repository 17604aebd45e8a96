/-
Verdicts before and after a restart.

A store that has been handed findings judges them by the digests that it recorded then. A store
that loads them from disk first records the digests that are missing: a file that could not be
read when the findings were handed in, and can be read now, is taken as it is now. So a finding
that the first store finds out of sync may be in sync for the second.

`verdicts_after_restart` says that there is nothing else. The stored text keeps what a mapping
points at and its digest, so that both stores compare the same things wherever the second has
nothing to record; and where it has, the verdicts are given for each finding by its mappings.
-/
import SourceDrift.Proofs.Store.Drift
import SourceDrift.Proofs.Store.Validated
import SourceDrift.Proofs.Sync.Agreement

set_option autoImplicit false

namespace SourceDrift

/-! ## Findings that point as others do -/

/-- Whether a finding points at what another points at, with the same digests. -/
def Finding.PointsAs (f g : Finding) : Prop :=
  Sync.mappings g = (Sync.mappings f).map SourceMapping.dropNonFinite

theorem Finding.pointsAs_stored (f : Finding) : f.PointsAs f.stored := by
  rw [PointsAs, Sync.mappings, Sync.mappings, f.mapped_stored, List.map_map, List.map_map]
  rfl

theorem Finding.Restated.pointsAs_stored {f g : Finding} (h : f.Restated g) :
    f.PointsAs g.stored := by
  have hsame : Sync.mappings g = Sync.mappings f := by
    rcases h with rfl | ⟨state, -, rfl⟩
    · rfl
    · rfl
  rw [PointsAs, ← hsame]
  exact g.pointsAs_stored

namespace Sync

variable {first second : Sources} {root : Path} {f g : Finding} {fs gs : List Finding}

theorem files_pointsAs (root : Path) (h : List.Forall₂ Finding.PointsAs fs gs) :
    files root gs = files root fs := by
  induction h with
  | nil => rfl
  | cons hf _ ih =>
    rw [files, files, List.flatMap_cons, List.flatMap_cons, ← files, ← files, ih, hf, List.map_map]
    rfl

theorem sameTargets_of_pointsAs (h : f.PointsAs g)
    (halike : ∀ m ∈ mappings f, first.key (m.file root) = second.key (m.file root) ∧
      first.read (m.file root) = second.read (m.file root)) :
    List.Forall₂ (SameTarget first second) (targets root f) (targets root g) := by
  rw [targets_eq, targets_eq, h, List.map_map, List.forall₂_map_left_iff,
    List.forall₂_map_right_iff, List.forall₂_same]
  exact fun m hm => ⟨(halike m hm).1, (halike m hm).2, rfl, rfl⟩

/-- A missing digest is that of what the file reads, if it can be read. -/
theorem digest_recordMapping_missing (src : Sources) (root : Path) (m : SourceMapping) :
    (recordMapping src root true m).digest =
      m.digest.or ((src.read (m.file root)).map m.digestIn) := by
  unfold recordMapping
  rw [Bool.true_and]
  cases hdigest : m.digest with
  | some digest =>
    rw [if_pos (by rfl), hdigest]
    rfl
  | none =>
    rw [if_neg (by decide)]
    cases src.read (m.file root) with
    | none => exact hdigest
    | some bytes => rfl

/-- **A finding with its missing digests recorded is in sync exactly if each of its files can be
read, with the digest that was recorded before if there was one.** -/
theorem verdict_recordFinding_missing {seen now : Sources} (h : f.PointsAs g)
    (hseen : ∀ m ∈ mappings f, seen.read (m.file root) = now.read (m.file root))
    (hsecond : ∀ m ∈ mappings f, second.read (m.file root) = now.read (m.file root)) :
    verdict second root (recordFinding seen root true g) = .inSync ↔
      ∀ m ∈ mappings f, ∃ bytes, now.read (m.file root) = some bytes ∧
        ∀ digest, m.digest = some digest → digest = m.digestIn bytes := by
  rw [verdict_eq_inSync, mappings_recordFinding, h, List.map_map]
  simp only [List.forall_mem_map]
  refine forall₂_congr (fun m hm => ?_)
  rw [Function.comp, file_recordMapping, digestIn_recordMapping, digest_recordMapping_missing]
  have hfile : m.dropNonFinite.file root = m.file root := rfl
  have hdigest : m.dropNonFinite.digest = m.digest := rfl
  have hdigestIn : m.dropNonFinite.digestIn = m.digestIn := rfl
  rw [hfile, hdigest, hdigestIn, hseen m hm, hsecond m hm]
  refine exists_congr (fun bytes => and_congr_right (fun hread => ?_))
  rw [hread]
  cases m.digest with
  | none => simp
  | some digest => simp

end Sync

namespace Repository

variable {root : Path} {fs : List Finding} {h h' : Host} {text : String}

/-- Whether the stored findings of a workspace can be read in two worlds, and are the same. -/
def ResultsKept (root : Path) (h h' : Host) : Prop :=
  ∃ bytes, h.files.readFile h.cwd (Storage.results root) = .ok bytes ∧
    h'.files.readFile h'.cwd (Storage.results root) = .ok bytes

/-- What is added beside the stored findings leaves them alone. -/
theorem resultsKept_of_extends (hcwd : h'.cwd = h.cwd) (hextends : h.files.Extends h'.files)
    (hsome : (h.files.readFile h.cwd (Storage.results root)).toOption.isSome) :
    ResultsKept root h h' := by
  obtain ⟨bytes, hread⟩ := Option.isSome_iff_exists.1 hsome
  have hthere := eq_ok_of_toOption hread
  refine ⟨bytes, hthere, ?_⟩
  rw [hcwd, FileTree.readFile_eq_ok]
  exact FileTree.status_mono hextends (FileTree.readFile_eq_ok.1 hthere)

/-- Whether the text of findings can be read where a workspace's findings are stored. -/
def Holds (root : Path) (fs : List Finding) (h : Host) : Prop :=
  ∃ text, encode fs = .ok text ∧
    h.files.readFile h.cwd (Storage.results root) = .ok (Utf8.encode text)

/-- What has been saved, and left alone, is there. -/
theorem holds_of_save {h₁ h₂ : Host} {u : Unit} (hroot : root.Proper)
    (hcwd : h.files.Grounded h.cwd) (hsave : save root fs h = .ok u h₁)
    (hkept : ResultsKept root h₁ h₂) : Holds root fs h₂ := by
  obtain ⟨text, hencode, hstored⟩ := stored_of_save hroot hcwd hsave
  obtain ⟨bytes, hread, hread'⟩ := hkept
  rw [hstored.readFile hread] at hread'
  exact ⟨text, hencode, hread'⟩

theorem Holds.kept (hholds : Holds root fs h) (hkept : ResultsKept root h h') :
    Holds root fs h' := by
  obtain ⟨text, hencode, hread⟩ := hholds
  obtain ⟨bytes, hbefore, hafter⟩ := hkept
  rw [hread] at hbefore
  cases hbefore
  exact ⟨text, hencode, hafter⟩

/-- **What is there is loaded** if the lock can be taken. -/
theorem Holds.load (hholds : Holds root fs h) (hfs : ∀ f ∈ fs, f.WellFormed ∧ ¬f.HidesState)
    (hlock : Host.lock (Storage.lock root) h = .ok () h') :
    load root h = .ok (some (fs.map Finding.stored)) h' := by
  obtain ⟨text, hencode, hread⟩ := hholds
  obtain ⟨htext, hdecode⟩ :=
    decode_of_encode h.assuredLevels_le_room (fun f hf => (hfs f hf).1) hencode
  rw [readFindings_document hfs] at hdecode
  exact load_of_readFile hread htext hdecode hlock

end Repository

namespace Store

/-! ## What is handed in without a state -/

/-- Whether nothing that is handed in gives a state, under either of its names. -/
def Incoming.CarriesNoState : Incoming → Prop
  | document v => (v.field? "_ext_in_sync").isNone ∧ (v.field? "in_sync").isNone
  | finding f => f.sync? = none ∧ (Json.lookup "in_sync" f.extras).isNone

instance (item : Incoming) : Decidable item.CarriesNoState :=
  match item with
  | .document _ => inferInstanceAs (Decidable (_ ∧ _))
  | .finding _ => inferInstanceAs (Decidable (_ ∧ _))

theorem lookup_in_sync_of_read {item : Incoming} {f : Finding} (hitem : item.CarriesNoState)
    (hf : item.read? = some f) : Json.lookup "in_sync" f.extras = none := by
  cases item with
  | finding g =>
    cases hf
    exact Option.isNone_iff_eq_none.1 hitem.2
  | document v =>
    obtain ⟨members, rfl, hread⟩ := Finding.ofJson_eq_ok.1 (ofJson_of_read hf)
    rw [hread.extras, Json.lookup_without]
    split
    · rfl
    · exact Option.isNone_iff_eq_none.1 hitem.2

/-- What is kept of such things hides no state. -/
theorem kept_of_ingest {root : Path} {raw : List Incoming} {kept : List Finding} {s s' : Session}
    (hraw : ∀ item ∈ raw, item.WellFormed ∧ item.CarriesNoState)
    (hingest : ingest root raw s = .ok kept s') : ∀ f ∈ kept, f.WellFormed ∧ ¬f.HidesState := by
  obtain ⟨hkept, -, -⟩ := replaceAll_eq_ok hingest
  have hsame := Sync.capture_redigested (sources s.host) root false
    (Finding.distinct (readIncoming raw))
  rw [← hkept] at hsame
  have hwell := wellFormed_redigested hsame
    (wellFormed_handedIn fun item hitem => (hraw item hitem).1)
  intro g hg
  refine ⟨hwell g hg, ?_⟩
  rintro ⟨-, hhidden⟩
  obtain ⟨f, hf, hfg⟩ := Checked.exists_of_mem_forall₂ hsame hg
  obtain ⟨item, hitem, hread⟩ := mem_handedIn hf
  rw [hfg.extras, lookup_in_sync_of_read (hraw item hitem).2 hread] at hhidden
  cases hhidden

/-! ## Two stores at one time -/

/-- The states that validating everything gives to the findings of a workspace. -/
def judged (root : Path) (s : Session) : List SyncState :=
  (get root (sessionAfter (validate root none) s)).map Finding.sync

theorem judged_eq (root : Path) (s : Session) :
    judged root s = (Sync.validate (sources s.host) root none (get root s)).1.map Finding.sync := by
  rw [judged, get_sessionAfter_validate]

/-- What is stored once findings have been validated are these findings, but for their states. -/
theorem holds_of_validate {root : Path} {report : Sync.Report} {s s' : Session} {h : Host}
    (hroot : root.Proper) (hcwd : s.host.files.Grounded s.host.cwd)
    (hbefore : Repository.Holds root (get root s) s.host)
    (hvalidate : validate root none s = .ok report s')
    (hkept : Repository.ResultsKept root s'.host h) :
    Repository.Holds root (Sync.validate (sources s.host) root none (get root s)).1 h := by
  by_cases hnil : get root s = []
  · -- Nothing is written then, and what is stored is what was stored before.
    rw [validate_of_nil hnil] at hvalidate
    cases hvalidate
    rw [hnil] at hbefore ⊢
    exact hbefore.kept hkept
  · have hsave := save_of_validate hnil hvalidate
    rw [validate_eq_ok hvalidate] at hsave
    exact Repository.holds_of_save hroot hcwd hsave hkept

/-- The states that a finding has at one time: in a store that was handed it, and in one that has
loaded it. -/
structure Rejudged (now : Sync.Sources) (root : Path) (f : Finding)
    (states : SyncState × SyncState) :
    Prop where
  known : states.1 ≠ .unknown ∧ states.2 ≠ .unknown
  running : states.1 = .inSync ↔ ∀ m ∈ Sync.mappings f, ∃ bytes,
    now.read (m.file root) = some bytes ∧ m.digest = some (m.digestIn bytes)
  restarted : states.2 = .inSync ↔ ∀ m ∈ Sync.mappings f, ∃ bytes,
    now.read (m.file root) = some bytes ∧ ∀ digest, m.digest = some digest →
    digest = m.digestIn bytes
  differ : states.1 ≠ states.2 ↔ states.2 = .inSync ∧ ∃ m ∈ Sync.mappings f, m.digest = none

/-- Two states that are known are one if both or neither are in sync. -/
theorem eq_iff_inSync {a b : SyncState} (ha : a ≠ .unknown) (hb : b ≠ .unknown) :
    a = b ↔ (a = .inSync ↔ b = .inSync) := by
  cases a with
  | unknown => exact absurd rfl ha
  | inSync | outOfSync =>
    cases b with
    | unknown => exact absurd rfl hb
    | inSync | outOfSync => decide

/-- **Both states of a finding**, by what its mappings have recorded. -/
theorem rejudged {now seen later : Sync.Sources} {root : Path} {f g : Finding} (h : f.PointsAs g)
    (hseen : ∀ m ∈ Sync.mappings f, seen.read (m.file root) = now.read (m.file root))
    (hlater : ∀ m ∈ Sync.mappings f, later.read (m.file root) = now.read (m.file root)) :
    Rejudged now root f
      (Sync.verdict now root f, Sync.verdict later root (Sync.recordFinding seen root true g)) := by
  have hknown := Sync.verdict_ne_unknown now root f
  have hknown' := Sync.verdict_ne_unknown later root (Sync.recordFinding seen root true g)
  have hrunning := @Sync.verdict_eq_inSync now root f
  have hrestarted := Sync.verdict_recordFinding_missing h hseen hlater
  refine ⟨⟨hknown, hknown'⟩, hrunning, hrestarted, ?_⟩
  dsimp only
  rw [Ne, eq_iff_inSync hknown hknown', hrunning, hrestarted]
  constructor
  · -- Whatever the first store finds in sync the second does, so the second is in sync here.
    intro hne
    by_cases hall : ∀ m ∈ Sync.mappings f, ∃ bytes, now.read (m.file root) = some bytes ∧
        ∀ digest, m.digest = some digest → digest = m.digestIn bytes
    · refine ⟨hall, ?_⟩
      by_contra hdigests
      refine hne ⟨fun _ => hall, fun _ m hm => ?_⟩
      obtain ⟨bytes, hread, hsame⟩ := hall m hm
      cases hdigest : m.digest with
      | none => exact absurd ⟨m, hm, hdigest⟩ hdigests
      | some digest => exact ⟨bytes, hread, congrArg some (hsame digest hdigest)⟩
    · refine absurd ⟨fun hcurrent m hm => ?_, fun h => absurd h hall⟩ hne
      obtain ⟨bytes, hread, hdigest⟩ := hcurrent m hm
      refine ⟨bytes, hread, fun digest heq => ?_⟩
      rw [hdigest] at heq
      exact (Option.some.inj heq).symm
  · rintro ⟨hall, m, hm, hnone⟩ hiff
    obtain ⟨bytes, -, hdigest⟩ := hiff.2 hall m hm
    rw [hnone] at hdigest
    cases hdigest

/-- Two maps over related lists are the two sides of a list of pairs. -/
theorem exists_pairs {α β γ δ : Type} {r : α → β → Prop} {q : α → γ × δ → Prop}
    {a : α → γ} {b : β → δ}
    {xs : List α} {ys : List β} (h : List.Forall₂ r xs ys)
    (hr : ∀ x ∈ xs, ∀ y, r x y → q x (a x, b y)) :
    ∃ pairs : List (γ × δ), xs.map a = pairs.map Prod.fst ∧ ys.map b = pairs.map Prod.snd ∧
      List.Forall₂ q xs pairs := by
  induction h with
  | nil => exact ⟨[], rfl, rfl, .nil⟩
  | @cons x y xs ys hxy _ ih =>
    rw [List.forall_mem_cons] at hr
    obtain ⟨pairs, hfst, hsnd, hall⟩ := ih hr.2
    refine ⟨(a x, b y) :: pairs, ?_, ?_, .cons (hr.1 y hxy) hall⟩
    · rw [List.map_cons, List.map_cons, hfst]
    · rw [List.map_cons, List.map_cons, hsnd]

section

variable {root : Path} {kept loaded : List Finding} {other : Store} {h h' h'' : Host}

/-- **Where nothing can be recorded**, both stores compare the same things in the same order, so
that their caches hold the same and nothing is asked of the names. -/
theorem judged_of_settled (hpoints : List.Forall₂ Finding.PointsAs kept loaded)
    (hloaded : loadStored root ⟨other, h'⟩ = .ok loaded ⟨other, h''⟩)
    (halike : (sources h).Alike (sources h'') (Sync.files root kept))
    (hsettled : ∀ f ∈ kept, ∀ m ∈ Sync.mappings f, Sync.Settled (sources h) root m) :
    ∃ s₄, load root ⟨other, h'⟩ = .ok () s₄ ∧
      judged root s₄ = (Sync.validate (sources h) root none kept).1.map Finding.sync := by
  have hnothing : Sync.capture (sources h'') root true loaded = (loaded, 0) := by
    refine Sync.capture_eq_self (fun g hg n hn hnone => ?_)
    obtain ⟨f, hf, hfg⟩ := Checked.exists_of_mem_forall₂ hpoints hg
    rw [hfg] at hn
    obtain ⟨m, hm, rfl⟩ := List.mem_map.1 hn
    rw [← hsettled f hf m hm hnone]
    exact ((halike _ (Sync.mem_files hf hm)).2).symm
  refine ⟨_, load_of_backfill hloaded (backfill_of_capture hnothing), ?_⟩
  rw [judged_eq, get, getKey_put]
  refine (Sync.sync_validate_congr ?_).symm
  have hall := (List.forall₂_and_left _ _).2 ⟨fun f hf => hf, hpoints⟩
  refine hall.imp (fun f g hfg => ?_)
  exact Sync.sameTargets_of_pointsAs hfg.2 (fun m hm => halike _ (Sync.mem_files hfg.1 hm))

/-- **Where names with one key read alike**, both states of each finding are those of its own
mappings, whatever is recorded. -/
theorem judged_of_consistent {s₄ : Session} (hpoints : List.Forall₂ Finding.PointsAs kept loaded)
    (hloaded : loadStored root ⟨other, h'⟩ = .ok loaded ⟨other, h''⟩)
    (halike : (sources h).Alike (sources h'') (Sync.files root kept))
    (hload : load root ⟨other, h'⟩ = .ok () s₄)
    (hlater : (sources h).Alike (sources s₄.host) (Sync.files root kept))
    (hconsistent : (sources h).Consistent (Sync.files root kept)) :
    ∃ states, (Sync.validate (sources h) root none kept).1.map Finding.sync = states.map Prod.fst ∧
      judged root s₄ = states.map Prod.snd ∧
      List.Forall₂ (Rejudged (sources h) root) kept states := by
  -- The names that occur are the same throughout, so that they read alike at each time.
  have hfiles := Sync.files_pointsAs root hpoints
  have hseen : (sources h'').Consistent (Sync.files root loaded) := by
    rw [hfiles]
    exact halike.consistent hconsistent
  have hrestarted : get root s₄ = loaded.map (Sync.recordFinding (sources h'') root true) := by
    rw [get_of_load hloaded hload, Sync.capture_eq_map true hseen]
  have hrecorded : Sync.files root (loaded.map (Sync.recordFinding (sources h'') root true)) =
      Sync.files root kept := by
    rw [← Sync.capture_eq_map true hseen, ← hfiles]
    exact Sync.files_redigested root (Sync.capture_redigested ..)
  have hagain : (sources s₄.host).Consistent
      (Sync.files root (loaded.map (Sync.recordFinding (sources h'') root true))) := by
    rw [hrecorded]
    exact hlater.consistent hconsistent
  rw [judged_eq, hrestarted, Sync.validate_all_eq_map hconsistent, Sync.validate_all_eq_map hagain,
    List.map_map, List.map_map, List.map_map]
  refine exists_pairs hpoints (fun f hf g hfg => rejudged hfg ?_ ?_)
  · exact fun m hm => (halike _ (Sync.mem_files hf hm)).2.symm
  · exact fun m hm => (hlater _ (Sync.mem_files hf hm)).2.symm

end

/-- **What a restart does to verdicts.** Findings without states are handed to a store, the sources
change, and another store loads what the first has stored, before or after the first has
validated it. If every file that the findings point at without a digest cannot be read then,
the second store's validation gives the states that the first one's gives. And in any case, if
names with one key read alike, both states of each finding are those that its mappings give:
they differ exactly if the second is in sync and a digest is missing. -/
theorem verdicts_after_restart (other : Store) {path : String} {raw : List Incoming}
    {kept : List Finding} {s₁ s₂ : Session} {h h' h'' : Host}
    (hcwd : s₁.host.files.Grounded s₁.host.cwd)
    (hraw : ∀ item ∈ raw, item.WellFormed ∧ item.CarriesNoState)
    (hingest : ingest (Path.ofString path) raw s₁ = .ok kept s₂)
    (hkey : h.key (Path.ofString path) = s₂.host.key (Path.ofString path))
    (hleft : Repository.ResultsKept (Path.ofString path) s₂.host h)
    (hthen : Repository.ResultsKept (Path.ofString path) h h' ∨
      ∃ report s₃, h.files.Grounded h.cwd ∧
        validate (Path.ofString path) none ⟨s₂.store, h⟩ = .ok report s₃ ∧
        Repository.ResultsKept (Path.ofString path) s₃.host h')
    (hlock : Host.lock (Storage.lock (Path.ofString path)) h' = .ok () h'')
    (halike : (sources h).Alike (sources h'') (Sync.files (Path.ofString path) kept)) :
    ((∀ f ∈ kept, ∀ m ∈ Sync.mappings f, Sync.Settled (sources h) (Path.ofString path) m) →
        ∃ s₄, load (Path.ofString path) ⟨other, h'⟩ = .ok () s₄ ∧
          judged (Path.ofString path) s₄ = judged (Path.ofString path) ⟨s₂.store, h⟩) ∧
      ∀ s₄, load (Path.ofString path) ⟨other, h'⟩ = .ok () s₄ →
        (sources h).Alike (sources s₄.host) (Sync.files (Path.ofString path) kept) →
        (sources h).Consistent (Sync.files (Path.ofString path) kept) →
        ∃ states, judged (Path.ofString path) ⟨s₂.store, h⟩ = states.map Prod.fst ∧
          judged (Path.ofString path) s₄ = states.map Prod.snd ∧
          List.Forall₂ (Rejudged (sources h) (Path.ofString path)) kept states := by
  have hroot := Path.proper_ofString path
  generalize Path.ofString path = root at hroot hingest hkey hleft hthen hlock halike ⊢
  obtain ⟨-, hsave, hget⟩ := replaceAll_eq_ok hingest
  have hkept := kept_of_ingest hraw hingest
  have hrunning : get root ⟨s₂.store, h⟩ = kept := by
    rw [← hget, get, get, hkey]
  have hholds := Repository.holds_of_save hroot hcwd hsave hleft
  -- What the second store loads is what the first has kept, but for the states if the first has
  -- validated in between.
  obtain ⟨gs, hsame, hgs, hthere⟩ : ∃ gs, List.Forall₂ Finding.Restated kept gs ∧
      (∀ g ∈ gs, g.WellFormed ∧ ¬g.HidesState) ∧ Repository.Holds root gs h' := by
    rcases hthen with hthen | ⟨report, s₃, hcwd', hvalidate, hthen⟩
    · exact ⟨kept, List.forall₂_same.2 (fun _ _ => .inl rfl), hkept, hholds.kept hthen⟩
    · have hthere := holds_of_validate hroot hcwd' (by rw [hrunning]; exact hholds) hvalidate hthen
      rw [hrunning] at hthere
      refine ⟨_, Sync.validate_restated (sources h) root none kept, fun g hg => ?_, hthere⟩
      refine ⟨wellFormed_validated _ _ _ (fun f hf => (hkept f hf).1) g hg, ?_⟩
      rintro ⟨hunknown, -⟩
      exact Sync.sync_validate_ne_unknown _ _ _ g hg hunknown
  have hpoints : List.Forall₂ Finding.PointsAs kept (gs.map Finding.stored) := by
    rw [List.forall₂_map_right_iff]
    exact hsame.imp (fun f g hfg => hfg.pointsAs_stored)
  have hloaded := loadStored_of_load (s := ⟨other, h'⟩) (hthere.load hgs hlock)
  rw [judged_eq root ⟨s₂.store, h⟩, hrunning]
  exact ⟨judged_of_settled hpoints hloaded halike, fun s₄ hload hlater hconsistent =>
    judged_of_consistent hpoints hloaded halike hload hlater hconsistent⟩

/-- A document of a finding that points at the first byte of a file. -/
def lateDocument : Json :=
  .obj [("check", .str "x"), ("elements", .arr [.obj [("source_mapping",
    .obj [("filename_relative", .str "b.sol"), ("length", .int 1)])]])]

/-- The session after that finding has been handed in, when there is no such file. -/
def lateSession : Session :=
  sessionAfter (ingest (Path.ofString "") [.document lateDocument]) emptySession

/-- The session after it has been validated, still without the file. -/
def lateValidated : Session :=
  sessionAfter (validate (Path.ofString "") none) ⟨lateSession.store, lateSession.host⟩

/-- A world with the file in it. -/
def withFile (h : Host) : Host :=
  { h with files := h.files.insert ["w", "b.sol"] (.file [99]) }

theorem cwd_withFile (h : Host) : (withFile h).cwd = h.cwd := rfl

/-- The session of a new store that has taken the lock in a world. -/
def lockedSession (h : Host) : Session :=
  sessionAfter (onHost (Host.lock (Storage.lock (Path.ofString "")))) ⟨.empty .always, h⟩

/-- The session of a new store that has loaded what is stored in a world. -/
def loadedSession (h : Host) : Session :=
  sessionAfter (load (Path.ofString "")) ⟨.empty .always, h⟩

/-- Whether the stored findings can be read in a world. -/
def IsStored (h : Host) : Prop :=
  (h.files.readFile h.cwd (Storage.results (Path.ofString ""))).toOption.isSome

/-- Whether the lock can be taken in a world. -/
def CanLock (h : Host) : Prop :=
  (answer? (onHost (Host.lock (Storage.lock (Path.ofString "")))) ⟨.empty .always, h⟩).isSome

instance (h : Host) : Decidable (IsStored h) := inferInstanceAs (Decidable (_ = true))

instance (h : Host) : Decidable (CanLock h) := inferInstanceAs (Decidable (_ = true))

theorem lock_lockedSession {h : Host} (hlock : CanLock h) :
    Host.lock (Storage.lock (Path.ofString "")) h = .ok () (lockedSession h).host := by
  obtain ⟨_, hrun⟩ := eq_ok_of_answer hlock
  exact (onHost_eq_ok.1 hrun).1

theorem handedIn_lateDocument : ∀ item ∈ [Incoming.document lateDocument],
    item.WellFormed ∧ item.CarriesNoState ∧ item.CarriesNoDigest := by
  intro item hitem
  rw [List.mem_singleton.1 hitem]
  exact ⟨(by decide : lateDocument.hasUniqueKeys = true), by decide, by decide⟩

theorem grounded_emptySession : emptySession.host.files.Grounded emptySession.host.cwd :=
  grounded_of_cwd rfl rfl

theorem ingest_lateSession :
    ∃ kept, ingest (Path.ofString "") [.document lateDocument] emptySession =
    .ok kept lateSession :=
  eq_ok_of_answer (by decide +kernel)

theorem resultsKept_withFile :
    Repository.ResultsKept (Path.ofString "") lateSession.host (withFile lateSession.host) := by
  obtain ⟨hfree, hstored⟩ : lateSession.host.files.node? ["w", "b.sol"] = none ∧
      IsStored lateSession.host := by decide +kernel
  exact Repository.resultsKept_of_extends (cwd_withFile _) (FileTree.extends_insert hfree) hstored

/-- With the file in place a new store loads the finding, records the missing digest without
touching the file, and finds it in sync. -/
theorem loadedSession_withFile :
    load (Path.ofString "") ⟨.empty .always, withFile lateSession.host⟩ =
        .ok () (loadedSession (withFile lateSession.host)) ∧
      (sources (withFile lateSession.host)).Alike
        (sources (loadedSession (withFile lateSession.host)).host)
        (Sync.files (Path.ofString "") (get (Path.ofString "") lateSession)) ∧
      judged (Path.ofString "") (loadedSession (withFile lateSession.host)) = [.inSync] := by
  -- One evaluation for all three: the load is evaluated once.
  obtain ⟨hloads, hseen⟩ :
      (answer? (load (Path.ofString "")) ⟨.empty .always, withFile lateSession.host⟩).isSome ∧
        (sources (withFile lateSession.host)).Alike
          (sources (loadedSession (withFile lateSession.host)).host)
          (Sync.files (Path.ofString "") (get (Path.ofString "") lateSession)) ∧
        judged (Path.ofString "") (loadedSession (withFile lateSession.host)) = [.inSync] := by
    decide +kernel
  obtain ⟨_, hload⟩ : ∃ u, load (Path.ofString "") ⟨.empty .always, withFile lateSession.host⟩ =
      .ok u (loadedSession (withFile lateSession.host)) := eq_ok_of_answer hloads
  exact ⟨hload, hseen⟩

/-- While the file is missing nothing can be recorded, and a restart after a validation changes
nothing. With the file in place the finding has the states that its mapping gives it. -/
theorem verdicts_after_restart_late_file :
    (∃ s₄, load (Path.ofString "") ⟨.empty .always, lateValidated.host⟩ = .ok () s₄ ∧
        judged (Path.ofString "") s₄ =
          judged (Path.ofString "") ⟨lateSession.store, lateSession.host⟩) ∧
      ∃ states, judged (Path.ofString "") ⟨lateSession.store, withFile lateSession.host⟩ =
          states.map Prod.fst ∧
        judged (Path.ofString "") (loadedSession (withFile lateSession.host)) =
          states.map Prod.snd ∧
        List.Forall₂ (Rejudged (sources (withFile lateSession.host)) (Path.ofString ""))
          (get (Path.ofString "") lateSession) states := by
  obtain ⟨kept, hingest⟩ := ingest_lateSession
  obtain rfl : get (Path.ofString "") lateSession = kept := (replaceAll_eq_ok hingest).2.2
  have hraw : ∀ item ∈ [Incoming.document lateDocument], item.WellFormed ∧ item.CarriesNoState :=
    fun item hitem => ⟨(handedIn_lateDocument item hitem).1, (handedIn_lateDocument item hitem).2.1⟩
  constructor
  · -- What can be evaluated is evaluated at one go, so that the session is evaluated once.
    obtain ⟨hplace, hnode, hstored, hvalidates, hstored', hlocks, halike, hsettled⟩ :
        lateSession.host.cwd = ["w"] ∧ lateSession.host.files.node? ["w"] = some .directory ∧
          IsStored lateSession.host ∧
          (answer? (validate (Path.ofString "") none) ⟨lateSession.store,
            lateSession.host⟩).isSome ∧
          IsStored lateValidated.host ∧ CanLock lateValidated.host ∧
          (sources lateSession.host).Alike (sources (lockedSession lateValidated.host).host)
            (Sync.files (Path.ofString "") (get (Path.ofString "") lateSession)) ∧
          ∀ f ∈ get (Path.ofString "") lateSession, ∀ m ∈ Sync.mappings f,
            Sync.Settled (sources lateSession.host) (Path.ofString "") m := by
      decide +kernel
    have hleft := Repository.resultsKept_of_extends rfl (.refl lateSession.host.files) hstored
    have hthen := Repository.resultsKept_of_extends rfl (.refl lateValidated.host.files) hstored'
    obtain ⟨report, hvalidate⟩ : ∃ report, validate (Path.ofString "") none
        ⟨lateSession.store, lateSession.host⟩ = .ok report lateValidated :=
          eq_ok_of_answer hvalidates
    exact (verdicts_after_restart (.empty .always) grounded_emptySession hraw hingest rfl hleft
      (.inr ⟨report, lateValidated, grounded_of_cwd hplace hnode, hvalidate, hthen⟩)
      (lock_lockedSession hlocks) halike).1 hsettled
  · have hkey : (withFile lateSession.host).key (Path.ofString "") =
        lateSession.host.key (Path.ofString "") := key_of_cwd (cwd_withFile lateSession.host) _
    obtain ⟨hstored, hlocks, halike, hconsistent⟩ : IsStored (withFile lateSession.host) ∧
        CanLock (withFile lateSession.host) ∧
        (sources (withFile lateSession.host)).Alike
          (sources (lockedSession (withFile lateSession.host)).host)
          (Sync.files (Path.ofString "") (get (Path.ofString "") lateSession)) ∧
        (sources (withFile lateSession.host)).Consistent
          (Sync.files (Path.ofString "") (get (Path.ofString "") lateSession)) := by
      decide +kernel
    have hthen := Repository.resultsKept_of_extends
      rfl (.refl (withFile lateSession.host).files) hstored
    obtain ⟨hload, hlater, -⟩ := loadedSession_withFile
    exact (verdicts_after_restart (.empty .always) grounded_emptySession hraw hingest hkey
      resultsKept_withFile (.inl hthen) (lock_lockedSession hlocks) halike).2 _ hload hlater
      hconsistent

/-- **A restart can change a verdict**: the digest of a file that was missing when the finding was
handed in is recorded by the load, and not by the store that was handed it. -/
theorem verdict_changed_by_restart :
    ∃ (raw : List Incoming) (kept : List Finding) (s₁ s₂ : Session) (h : Host) (s₄ : Session),
      s₁.host.files.Grounded s₁.host.cwd ∧
        (∀ item ∈ raw, item.WellFormed ∧ item.CarriesNoState ∧ item.CarriesNoDigest) ∧
        ingest (Path.ofString "") raw s₁ = .ok kept s₂ ∧ h.cwd = s₂.host.cwd ∧
        Repository.ResultsKept (Path.ofString "") s₂.host h ∧
        load (Path.ofString "") ⟨.empty .always, h⟩ = .ok () s₄ ∧
        judged (Path.ofString "") ⟨s₂.store, h⟩ ≠ judged (Path.ofString "") s₄ := by
  obtain ⟨kept, hingest⟩ := ingest_lateSession
  obtain ⟨hload, -, hrestarted⟩ := loadedSession_withFile
  have hrunning : judged (Path.ofString "") ⟨lateSession.store, withFile lateSession.host⟩ =
      [.outOfSync] := by decide +kernel
  refine ⟨_, kept, emptySession, lateSession, withFile lateSession.host,
    loadedSession (withFile lateSession.host), grounded_emptySession,
    handedIn_lateDocument, hingest,
    cwd_withFile _, resultsKept_withFile, hload, ?_⟩
  rw [hrunning, hrestarted]
  decide

end Store
end SourceDrift
