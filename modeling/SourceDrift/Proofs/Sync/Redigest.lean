/-
A recording changes digests and nothing else; a validation changes states and nothing else.

This holds whatever the cache answers, so nothing is asked of the paths. Where a finding
points, its sync state and its extras are after a recording what they were before it. A recording
of what is missing changes nothing at all where the files that it asks for cannot be read.
-/
import SourceDrift.Proofs.Finding.Document
import SourceDrift.Proofs.Sync.Pass

set_option autoImplicit false

namespace SourceDrift

/-! ## Findings up to their digests -/

/-- Whether an element is another with a digest recorded at most. -/
def Element.Redigested (before after : Element) : Prop :=
  after = before ∨ ∃ m digest, before.mapping = some m ∧
    after = before.withMapping (m.withDigest digest)

/-- Whether a finding is another with digests recorded at most. -/
def Finding.Redigested (before after : Finding) : Prop :=
  after = before ∨ ∃ es es', before.elements? = some es ∧
    List.Forall₂ Element.Redigested es es' ∧ after = { before with elements? := some es' }

namespace Sync

theorem step_redigested (src : Sources) (root : Path) (onlyMissing : Bool) (e : Element) :
    Step src root onlyMissing (fun _ => True) (fun e e' _ => e.Redigested e') e := by
  intro cache _
  refine ⟨_, _, _, rfl, trivial, ?_⟩
  show e.Redigested (captureElement src root onlyMissing cache e).1
  unfold captureElement captureMapping
  cases hm : e.mapping with
  | none => exact .inl rfl
  | some m =>
    dsimp only
    by_cases hskip : (onlyMissing && m.digest.isSome) = true
    · rw [if_pos hskip]
      exact .inl rfl
    · rw [if_neg hskip]
      obtain ⟨content, after⟩ := fetch src cache (m.file root)
      cases content with
      | none => exact .inl rfl
      | some bytes => exact .inr ⟨m, _, hm, rfl⟩

/-- **A recording changes digests only.** -/
theorem capture_redigested (src : Sources) (root : Path) (onlyMissing : Bool) (fs : List Finding) :
    List.Forall₂ Finding.Redigested fs (capture src root onlyMissing fs).1 := by
  have hall := capture_swept fs trivial fun _ _ e _ => step_redigested src root onlyMissing e
  refine hall.forall₂.imp fun f g ⟨_, hf⟩ => ?_
  rcases hf with ⟨-, rfl, -⟩ | ⟨es, es', hes, rfl, hes'⟩
  · exact .inl rfl
  · exact .inr ⟨es, es', hes, hes'.forall₂.imp fun _ _ ⟨_, h⟩ => h, rfl⟩

/-! ### Nothing to record -/

/-- Whether a mapping has its digest, or a file that cannot be read. -/
def Settled (src : Sources) (root : Path) (m : SourceMapping) : Prop :=
  m.digest = none → src.read (m.file root) = none

instance (src : Sources) (root : Path) (m : SourceMapping) : Decidable (Settled src root m) :=
  inferInstanceAs (Decidable (_ → _))

/-- Whether a cache remembers only files that could not be read. -/
def Cache.Barren (cache : Cache) : Prop :=
  ∀ key content, cache.lookup key = some content → content = none

theorem fetch_of_barren {src : Sources} {cache : Cache} {p : Path} (hcache : cache.Barren)
    (hp : src.read p = none) : ∃ after, fetch src cache p = (none, after) ∧ after.Barren := by
  unfold fetch
  cases hfound : cache.lookup (src.key p) with
  | some content =>
    rw [hcache _ _ hfound]
    exact ⟨cache, rfl, hcache⟩
  | none =>
    refine ⟨_, by rw [hp], ?_⟩
    intro key content hlookup
    rw [Cache.lookup] at hlookup
    split at hlookup
    · exact (Option.some.inj hlookup).symm
    · exact hcache _ _ hlookup

variable {src : Sources} {root : Path}

theorem step_eq_self {e : Element} (he : ∀ m, e.mapping = some m → Settled src root m) :
    Step src root true Cache.Barren (fun e e' count => e' = e ∧ count = 0) e := by
  intro cache hcache
  unfold captureElement captureMapping
  cases hm : e.mapping with
  | none => exact ⟨e, 0, cache, rfl, hcache, rfl, rfl⟩
  | some m =>
    dsimp only
    rw [Bool.true_and]
    by_cases hdigest : m.digest.isSome = true
    · rw [if_pos hdigest]
      exact ⟨e, 0, cache, rfl, hcache, rfl, rfl⟩
    · rw [if_neg hdigest]
      rw [Option.isSome_iff_ne_none, not_not] at hdigest
      obtain ⟨after, hfetch, hafter⟩ := fetch_of_barren hcache (he m hm hdigest)
      rw [hfetch]
      exact ⟨e, 0, after, rfl, hafter, rfl, rfl⟩

/-- **Nothing is recorded where nothing can be read that lacks a digest.** No condition on the
names is needed: what the cache then answers for them is that they cannot be read, too. -/
theorem capture_eq_self {fs : List Finding} (hfs : ∀ f ∈ fs, ∀ m ∈ mappings f, Settled src root m) :
    capture src root true fs = (fs, 0) := by
  -- A mapping with a digest is passed over before its file is read, so the cache stays barren.
  have hall : Swept (SweptFinding fun e e' count => e' = e ∧ count = 0) fs
      (capture src root true fs).1 (capture src root true fs).2 := by
    refine capture_swept fs (fun _ _ h => by cases h) fun f hf e he => step_eq_self fun m hm => ?_
    exact hfs f hf m (mem_mappings.2 ⟨e, he, hm⟩)
  have heq := (hall.imp fun f _ g _ hf => hf.eq_self).eq_self
  exact Prod.ext heq.1 heq.2

end Sync

/-! ## Findings up to their states -/

/-- Whether a finding is another with its state set at most, to one that is known. -/
def Finding.Restated (before after : Finding) : Prop :=
  after = before ∨ ∃ state, state ≠ .unknown ∧ after = before.withSync state

namespace Sync

/-- **A validation sets the states of the findings concerned**, and does nothing else. -/
theorem validate_states (src : Sources) (root : Path) (changed : Option Path) (fs : List Finding) :
    List.Forall₂ (fun f g => ∃ state, state ≠ .unknown ∧
        g = if isConcerned src root (changed.map src.key) f then f.withSync state else f)
      fs (validate src root changed fs).1 := by
  have hall : ∀ (cache : Cache) (report : Report),
      List.Forall₂ (fun f g => ∃ state, state ≠ .unknown ∧
          g = if isConcerned src root (changed.map src.key) f then f.withSync state else f)
        fs (validateFindings src root (changed.map src.key) cache report fs).1 := by
    induction fs with
    | nil => exact fun _ _ => .nil
    | cons f rest ih =>
      intro cache report
      rw [validateFindings]
      by_cases hconcerned : isConcerned src root (changed.map src.key) f = true
      · obtain ⟨same, after⟩ := unchanged src cache (targets root f)
        rw [if_pos hconcerned]
        refine .cons ⟨if same then .inSync else .outOfSync, ?_, ?_⟩ (ih _ _)
        · cases same <;> decide
        · rw [if_pos hconcerned]
      · rw [if_neg hconcerned]
        refine .cons ⟨.inSync, by decide, ?_⟩ (ih _ _)
        rw [if_neg hconcerned]
  exact hall [] .empty

theorem validate_restated (src : Sources) (root : Path) (changed : Option Path)
    (fs : List Finding) :
    List.Forall₂ Finding.Restated fs (validate src root changed fs).1 := by
  refine (validate_states src root changed fs).imp (fun f g h => ?_)
  obtain ⟨state, hstate, rfl⟩ := h
  split
  · exact .inr ⟨state, hstate, rfl⟩
  · exact .inl rfl

/-- **A validation of everything leaves no state unknown.** -/
theorem sync_validate_ne_unknown (src : Sources) (root : Path) (fs : List Finding) :
    ∀ g ∈ (validate src root none fs).1, g.sync ≠ .unknown := by
  intro g hg
  obtain ⟨f, -, state, hstate, rfl⟩ :=
    Checked.exists_of_mem_forall₂ (validate_states src root none fs) hg
  exact hstate

/-- **A validation that checks nothing changes nothing.** -/
theorem validate_of_checked {src : Sources} {root : Path} {changed : Option Path}
    {fs : List Finding}
    (h : (validate src root changed fs).2.checked = 0) : (validate src root changed fs).1 = fs := by
  -- The count never falls, so with none at the end there was none on the way.
  have hall : ∀ (cache : Cache) (report : Report),
      report.checked ≤ (validateFindings src root (changed.map src.key) cache report fs).2.checked ∧
        ((validateFindings src root (changed.map src.key) cache report fs).2.checked =
            report.checked →
          (validateFindings src root (changed.map src.key) cache report fs).1 = fs) := by
    clear h
    induction fs with
    | nil => exact fun _ _ => ⟨Nat.le_refl _, fun _ => rfl⟩
    | cons f rest ih =>
      intro cache report
      rw [validateFindings]
      by_cases hconcerned : isConcerned src root (changed.map src.key) f = true
      · obtain ⟨same, after⟩ := unchanged src cache (targets root f)
        rw [if_pos hconcerned]
        dsimp only
        have hmore : (report.addChecked same).checked = report.checked + 1 := by
          cases same <;> rfl
        have hle := (ih after (report.addChecked same)).1
        rw [hmore] at hle
        exact ⟨by omega, fun heq => by omega⟩
      · rw [if_neg hconcerned]
        obtain ⟨hle, heq⟩ := ih cache report.addSkipped
        exact ⟨hle, fun hsame => congrArg (f :: ·) (heq hsame)⟩
  exact (hall [] .empty).2 h

end Sync

/-! ## What stays -/

theorem Element.mapping?_of_mapping {e : Element} {m : SourceMapping} (hm : e.mapping = some m) :
    e.mapping? = some (some m) ∧ m.isMapped = true := by
  rw [mapping, Option.filter_eq_some_iff] at hm
  refine ⟨?_, hm.2⟩
  cases hgiven : e.mapping? with
  | none =>
    rw [sourceMapping, hgiven] at hm
    cases hm.1
  | some given =>
    rw [sourceMapping, hgiven] at hm
    exact congrArg some hm.1

theorem Element.mapping_withMapping {e : Element} {m : SourceMapping} (hm : m.isMapped = true) :
    (e.withMapping m).mapping = some m :=
  Option.filter_eq_some_iff.2 ⟨rfl, hm⟩

theorem Element.Redigested.mapping {before after : Element} (h : before.Redigested after) :
    after.mapping = before.mapping ∨ ∃ m digest, before.mapping = some m ∧
      after.mapping = some (m.withDigest digest) := by
  rcases h with rfl | ⟨m, digest, hm, rfl⟩
  · exact .inl rfl
  · exact .inr ⟨m, digest, hm,
      Element.mapping_withMapping (m := m.withDigest digest) (Element.mapping?_of_mapping hm).2⟩

theorem Finding.Redigested.elements {before after : Finding} (h : before.Redigested after) :
    List.Forall₂ Element.Redigested before.elements after.elements := by
  rcases h with rfl | ⟨es, es', hes, hall, rfl⟩
  · exact List.forall₂_same.2 (fun _ _ => .inl rfl)
  · rw [Finding.elements, hes]
    exact hall

theorem Finding.Redigested.sync {before after : Finding} (h : before.Redigested after) :
    after.sync = before.sync := by
  rcases h with rfl | ⟨_, _, _, _, rfl⟩ <;> rfl

theorem Finding.Redigested.extras {before after : Finding} (h : before.Redigested after) :
    after.extras = before.extras := by
  rcases h with rfl | ⟨_, _, _, _, rfl⟩ <;> rfl

/-- A finding points at the same files. -/
theorem Finding.Redigested.map_file {before after : Finding} (root : Path)
    (h : before.Redigested after) :
    (Sync.mappings after).map (·.file root) = (Sync.mappings before).map (·.file root) := by
  rw [Sync.mappings_eq, Sync.mappings_eq]
  have hall := h.elements
  generalize before.elements = es at hall
  generalize after.elements = es' at hall
  induction hall with
  | nil => rfl
  | @cons e e' es es' he _ ih =>
    rcases he.mapping with heq | ⟨m, digest, hm, hm'⟩
    · cases hmapping : e.mapping with
      | none => rw [List.filterMap_cons_none (heq.trans hmapping),
          List.filterMap_cons_none hmapping, ih]
      | some m =>
        rw [List.filterMap_cons_some (heq.trans hmapping), List.filterMap_cons_some hmapping,
          List.map_cons, List.map_cons, ih]
    · rw [List.filterMap_cons_some hm, List.filterMap_cons_some hm', List.map_cons,
        List.map_cons, ih]
      rfl

theorem Sync.files_redigested {fs gs : List Finding} (root : Path)
    (h : List.Forall₂ Finding.Redigested fs gs) : files root gs = files root fs := by
  induction h with
  | nil => rfl
  | cons hf _ ih => rw [files, files, List.flatMap_cons, List.flatMap_cons, hf.map_file,
      ← files, ih, files]

/-! ### Well-formedness -/

theorem SourceMapping.WellFormed.withDigest {m : SourceMapping} (hm : m.WellFormed)
    (digest : String) :
    (m.withDigest digest).WellFormed where
  names := hm.names
  secondName h := by cases h
  unique := hm.unique

theorem Element.WellFormed.redigested {before after : Element} (hbefore : before.WellFormed)
    (h : before.Redigested after) : after.WellFormed := by
  rcases h with rfl | ⟨m, digest, hm, rfl⟩
  · exact hbefore
  · refine ⟨fun m' hm' => ?_, hbefore.details, hbefore.names, hbefore.secondName, hbefore.unique⟩
    cases hm'
    exact (hbefore.mapping m (Element.mapping?_of_mapping hm).1).withDigest digest

theorem Finding.WellFormed.redigested {before after : Finding} (hbefore : before.WellFormed)
    (h : before.Redigested after) : after.WellFormed := by
  rcases h with rfl | ⟨es, es', hes, hall, rfl⟩
  · exact hbefore
  · refine ⟨fun gs hgs e he => ?_, hbefore.names, hbefore.unique⟩
    cases hgs
    obtain ⟨e₀, he₀, hsame⟩ := Checked.exists_of_mem_forall₂ hall he
    exact (hbefore.elements es hes e₀ he₀).redigested hsame

theorem Finding.WellFormed.withSync {f : Finding} (hf : f.WellFormed) (state : SyncState) :
    (f.withSync state).WellFormed :=
  ⟨hf.elements, hf.names, hf.unique⟩

theorem Finding.WellFormed.restated {before after : Finding} (hbefore : before.WellFormed)
    (h : before.Restated after) : after.WellFormed := by
  rcases h with rfl | ⟨state, -, rfl⟩
  · exact hbefore
  · exact hbefore.withSync state

end SourceDrift
