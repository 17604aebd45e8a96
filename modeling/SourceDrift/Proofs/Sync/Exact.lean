/-
What a validation looks at, what it makes of it, and what it reports.

`Pass.lean` gives the findings after a pass as a map over those before it. This file says what
that map is in terms of the world alone: which findings are looked at again (`Rechecked`), and
which of these still have the bytes that were recorded (`AsRecorded`).

The report is counted along the way, and its counts need nothing of the names. Whatever the
cache answers, a finding that is looked at gets one of two states and is counted once, under
that state; one that is passed over is counted as that and keeps its state. So the counts are
an invariant of the pass, `Tallied`, with one lemma for each of the two things that can happen
to a finding.
-/
import SourceDrift.Proofs.Sync.Agreement

set_option autoImplicit false

namespace SourceDrift.Sync

/-! ## Which findings are looked at, and what they are compared with -/

/-- Whether a validation looks at a finding again: if no file is named as changed, if the finding
points nowhere, or if it points at the named file, however that is spelled. -/
def Rechecked (h : Host) (root : Path) (changed : Option Path) (f : Finding) : Prop :=
  changed = none ∨ mappings f = [] ∨
    ∃ file, changed = some file ∧ ∃ m ∈ mappings f, h.key (m.file root) = h.key file

/-- Whether each file that a finding points at can be read, and the bytes that are pointed at have
the digest that was recorded. -/
def AsRecorded (h : Host) (root : Path) (f : Finding) : Prop :=
  ∀ m ∈ mappings f, ∃ bytes, h.files.readFile h.cwd (m.file root) = .ok bytes ∧
    m.digest = some (Md5.digest (Digest.slice bytes m.start (m.start + m.length)))

theorem isConcerned_iff {h : Host} {root : Path} {changed : Option Path} {f : Finding} :
    isConcerned (Store.sources h) root (changed.map (Store.sources h).key) f = true ↔
      Rechecked h root changed f := by
  cases changed with
  | none => simp [isConcerned, Rechecked]
  | some file =>
    have hkey : ∀ p, (Store.sources h).key p = h.key p := fun _ => rfl
    simp [isConcerned, Rechecked, targets_eq, hkey]

instance (h : Host) (root : Path) (changed : Option Path) (f : Finding) :
    Decidable (Rechecked h root changed f) :=
  decidable_of_iff _ isConcerned_iff

theorem read_sources {h : Host} {p : Path} {bytes : List UInt8} :
    (Store.sources h).read p = some bytes ↔ h.files.readFile h.cwd p = .ok bytes := by
  show (h.files.readFile h.cwd p).toOption = some bytes ↔ _
  cases h.files.readFile h.cwd p <;> simp [Except.toOption]

theorem verdict_eq_inSync_iff {h : Host} {root : Path} {f : Finding} :
    verdict (Store.sources h) root f = .inSync ↔ AsRecorded h root f := by
  rw [verdict_eq_inSync]
  simp only [read_sources]
  exact Iff.rfl

/-- What a validation makes of a finding. -/
structure Outcome (h : Host) (root : Path) (changed : Option Path) (f g : Finding) : Prop where
  inSync : Rechecked h root changed f → (g.sync = .inSync ↔ AsRecorded h root f)
  outOfSync : Rechecked h root changed f → (g.sync = .outOfSync ↔ ¬AsRecorded h root f)
  passedOver : ¬Rechecked h root changed f → g = f
  onlyState : g = { f with sync? := g.sync? }

theorem outcome_validated (h : Host) (root : Path) (changed : Option Path) (f : Finding) :
    Outcome h root changed f
      (validated (Store.sources h) root (changed.map (Store.sources h).key) f) := by
  by_cases hchecked : Rechecked h root changed f
  · rw [validated, if_pos (isConcerned_iff.2 hchecked)]
    have hverdict := @verdict_eq_inSync_iff h root f
    have hknown := verdict_ne_unknown (Store.sources h) root f
    have hsync : (f.withSync (verdict (Store.sources h) root f)).sync =
        verdict (Store.sources h) root f := rfl
    refine ⟨fun _ => by rw [hsync, hverdict], fun _ => ?_, fun hnot => absurd hchecked hnot, rfl⟩
    rw [hsync, ← hverdict]
    -- A verdict is one of two states.
    cases hstate : verdict (Store.sources h) root f with
    | unknown => exact absurd hstate hknown
    | inSync | outOfSync => simp
  · have hskip : ¬isConcerned (Store.sources h) root (changed.map (Store.sources h).key) f = true :=
      fun hconcerned => hchecked (isConcerned_iff.1 hconcerned)
    rw [validated, if_neg hskip]
    exact ⟨fun hyes => absurd hyes hchecked, fun hyes => absurd hyes hchecked, fun _ => rfl, rfl⟩

/-! ## The report -/

/-- How many of the findings that are concerned have a state after a pass. -/
def countIn (state : SyncState) (concerned : Finding → Bool) (fs gs : List Finding) : Nat :=
  (fs.zip gs).countP fun p => concerned p.1 && decide (p.2.sync = state)

variable {concerned : Finding → Bool} {f : Finding}

theorem countIn_cons (state : SyncState) (g : Finding) (fs gs : List Finding)
    (hf : concerned f = true) : countIn state concerned (f :: fs) (g :: gs) =
      countIn state concerned fs gs + if g.sync = state then 1 else 0 := by
  simp [countIn, List.countP_cons, hf]

theorem countIn_cons_of_not (state : SyncState) (g : Finding) (fs gs : List Finding)
    (hf : concerned f = false) :
    countIn state concerned (f :: fs) (g :: gs) = countIn state concerned fs gs := by
  simp [countIn, hf]

/-- What a pass over findings adds to a report. -/
structure Tallied (concerned : Finding → Bool) (fs gs : List Finding) (before after : Report) :
    Prop where
  checked : after.checked = before.checked + fs.countP concerned
  skipped : after.skipped = before.skipped + fs.countP fun f => !concerned f
  inSync : after.inSync = before.inSync + countIn .inSync concerned fs gs
  outOfSync : after.outOfSync = before.outOfSync + countIn .outOfSync concerned fs gs
  balance : after.checked + (before.inSync + before.outOfSync) =
    before.checked + (after.inSync + after.outOfSync)

namespace Tallied

variable {g : Finding} {fs gs : List Finding} {before after : Report}

theorem nil (concerned : Finding → Bool) (report : Report) :
    Tallied concerned [] [] report report :=
  ⟨rfl, rfl, rfl, rfl, rfl⟩

/-- A finding that is looked at adds one to what is checked, and one to its new state. -/
theorem addChecked {same : Bool} (hf : concerned f = true)
    (hg : g.sync = if same then .inSync else .outOfSync)
    (h : Tallied concerned fs gs (before.addChecked same) after) :
    Tallied concerned (f :: fs) (g :: gs) before after := by
  obtain ⟨hchecked, hskipped, hinSync, houtOfSync, hbalance⟩ := h
  have hyes : (f :: fs).countP concerned = fs.countP concerned + 1 := List.countP_cons_of_pos hf
  have hno : (f :: fs).countP (fun f => !concerned f) = fs.countP fun f => !concerned f :=
    List.countP_cons_of_neg (by simp [hf])
  have hin := countIn_cons .inSync g fs gs hf
  have hout := countIn_cons .outOfSync g fs gs hf
  cases same with
  | true =>
    simp only [Report.addChecked, if_true] at hchecked hskipped hinSync houtOfSync hbalance hg
    simp only [hg, if_true, reduceCtorEq, if_false] at hin hout
    exact ⟨by omega, by omega, by omega, by omega, by omega⟩
  | false =>
    simp only [Report.addChecked, Bool.false_eq_true, if_false]
      at hchecked hskipped hinSync houtOfSync hbalance hg
    simp only [hg, if_true, reduceCtorEq, if_false] at hin hout
    exact ⟨by omega, by omega, by omega, by omega, by omega⟩

/-- A finding that is passed over adds one to what is skipped. -/
theorem addSkipped (hf : concerned f = false)
    (h : Tallied concerned fs gs before.addSkipped after) :
    Tallied concerned (f :: fs) (g :: gs) before after := by
  obtain ⟨hchecked, hskipped, hinSync, houtOfSync, hbalance⟩ := h
  have hyes : (f :: fs).countP concerned = fs.countP concerned :=
    List.countP_cons_of_neg (by simp [hf])
  have hno : (f :: fs).countP (fun f => !concerned f) = (fs.countP fun f => !concerned f) + 1 :=
    List.countP_cons_of_pos (by simp [hf])
  have hin := countIn_cons_of_not .inSync g fs gs hf
  have hout := countIn_cons_of_not .outOfSync g fs gs hf
  simp only [Report.addSkipped] at hchecked hskipped hinSync houtOfSync hbalance
  exact ⟨by omega, by omega, by omega, by omega, by omega⟩

end Tallied

/-- **The report counts what the pass does.** The induction is on the findings with the report so
far; what the cache holds does not matter to it. -/
theorem tallied_validateFindings (src : Sources) (root : Path) (changed : Option String)
    (fs : List Finding) : ∀ (cache : Cache) (report : Report),
      Tallied (isConcerned src root changed) fs
        (validateFindings src root changed cache report fs).1 report
        (validateFindings src root changed cache report fs).2 := by
  induction fs with
  | nil => exact fun _ report => .nil _ report
  | cons f rest ih =>
    intro cache report
    rw [validateFindings]
    by_cases hconcerned : isConcerned src root changed f = true
    · rw [if_pos hconcerned]
      obtain ⟨same, after⟩ := unchanged src cache (targets root f)
      exact (ih after (report.addChecked same)).addChecked hconcerned rfl
    · rw [if_neg hconcerned]
      exact (ih cache report.addSkipped).addSkipped (Bool.eq_false_iff.2 hconcerned)

/-- Whether a report is that of a validation that has made these findings of others. -/
structure Reports (h : Host) (root : Path) (changed : Option Path) (fs gs : List Finding)
    (report : Report) : Prop where
  checked : report.checked = fs.countP (Rechecked h root changed ·)
  inSync : report.inSync =
    (fs.zip gs).countP fun p => decide (Rechecked h root changed p.1 ∧ p.2.sync = .inSync)
  outOfSync : report.outOfSync =
    (fs.zip gs).countP fun p => decide (Rechecked h root changed p.1 ∧ p.2.sync = .outOfSync)
  checkedInState : report.checked = report.inSync + report.outOfSync
  all : report.checked + report.skipped = fs.length

theorem reports_validate (h : Host) (root : Path) (changed : Option Path) (fs : List Finding) :
    Reports h root changed fs (validate (Store.sources h) root changed fs).1
      (validate (Store.sources h) root changed fs).2 := by
  have hconcerned : isConcerned (Store.sources h) root (changed.map (Store.sources h).key) =
      fun f => decide (Rechecked h root changed f) := by
    funext f
    rw [Bool.eq_iff_iff, isConcerned_iff, decide_eq_true_iff]
  have htallied : Tallied (fun f => decide (Rechecked h root changed f)) fs
      (validate (Store.sources h) root changed fs).1 .empty
      (validate (Store.sources h) root changed fs).2 := by
    rw [← hconcerned]
    exact tallied_validateFindings _ _ _ fs [] .empty
  obtain ⟨hchecked, hskipped, hinSync, houtOfSync, hbalance⟩ := htallied
  simp only [Report.empty, Nat.zero_add, Nat.add_zero, countIn, ← Bool.decide_and]
    at hchecked hskipped hinSync houtOfSync hbalance
  refine ⟨hchecked, hinSync, houtOfSync, hbalance, ?_⟩
  rw [hchecked, hskipped, List.length_eq_countP_add_countP (Rechecked h root changed ·)]
  simp only [decide_eq_true_eq, decide_not]

/-! ## The whole pass -/

/-- **A validation is exact**: it looks at the findings that are concerned and at no others, finds
those in sync whose files are what they were, changes nothing but their states, and reports what
it has done. Names in the list with one key are taken to read alike. -/
theorem validation_exact (h : Host) (root : Path) (changed : Option Path) (fs : List Finding)
    (hread : (Store.sources h).Consistent (files root fs)) :
    List.Forall₂ (Outcome h root changed) fs (validate (Store.sources h) root changed fs).1 ∧
      Reports h root changed fs (validate (Store.sources h) root changed fs).1
        (validate (Store.sources h) root changed fs).2 := by
  refine ⟨?_, reports_validate h root changed fs⟩
  rw [validate_eq_map changed hread, List.forall₂_map_right_iff, List.forall₂_same]
  exact fun f _ => outcome_validated h root changed f

/-- Two findings that were in sync, and one that points nowhere and has no state. -/
def mixedFindings : List Finding :=
  inSyncPair ++ [⟨none, none, none, none, none, none, []⟩]

/-- The second file has been edited and is named in another spelling: its finding is looked at and
out of sync, the one that points nowhere is looked at and in sync, and the first is passed over. -/
theorem validation_exact_after_edit :
    let h := pairWorld 99
    let file : Path := ⟨"", ["c", "..", "b.sol"]⟩
    let after := validate (Store.sources h) ⟨"", []⟩ (some file) mixedFindings
    (Store.sources h).Consistent (files ⟨"", []⟩ mixedFindings) ∧
      after.1.map Finding.sync = [.inSync, .outOfSync, .inSync] ∧ after.2 = ⟨2, 1, 1, 1⟩ ∧
      List.Forall₂ (Outcome h ⟨"", []⟩ (some file)) mixedFindings after.1 ∧
      Reports h ⟨"", []⟩ (some file) mixedFindings after.1 after.2 := by
  intro h file after
  have hread : (Store.sources h).Consistent (files ⟨"", []⟩ mixedFindings) := by decide +kernel
  have hstates : after.1.map Finding.sync = [.inSync, .outOfSync, .inSync] ∧
      after.2 = ⟨2, 1, 1, 1⟩ := by decide +kernel
  exact ⟨hread, hstates.1, hstates.2, validation_exact h ⟨"", []⟩ (some file) mixedFindings hread⟩

end SourceDrift.Sync
