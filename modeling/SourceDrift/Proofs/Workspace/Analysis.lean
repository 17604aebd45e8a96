/-
What analysing a workspace does to the findings.

An analysis that fails stops before anything is handed to the store, so that memory is as it was.
On disk it may have removed the document of the run before, or left one of its own, at the one
place that is for that; and it may have made directories. No stored findings are touched, unless
someone has made a link from them to that place.

An analysis that succeeds hands to the store what the document lists that the run has left, and
nothing else.
-/
import SourceDrift.Proofs.Analyzer.Run
import SourceDrift.Proofs.Store.Mirror
import SourceDrift.Proofs.Workspace.Settings
import SourceDrift.Workspace.Analysis

set_option autoImplicit false

namespace SourceDrift.Analysis

open Store SourceDrift.Action

variable {root : Path} {s s' : Session} {outcome : Outcome}

/-- **An analysis of a workspace**, step by step: its settings, the run, and what is handed in. -/
theorem execute_eq (root : Path) (s : Session) :
    execute root s =
      match Settings.found s.host.room s.host.files s.host.cwd root with
      | .error e => .error e s
      | .ok config =>
        match Analyzer.analyze root (Storage.output root) config.solcPath config.timeout s.host with
        | .error e h => .error e ⟨s.store, h⟩
        | .ok (.failed _ reason) h => .ok ⟨root, .error reason⟩ ⟨s.store, h⟩
        | .ok (.found _ items) h =>
          match ingest root (items.map .document) ⟨s.store, h⟩ with
          | .error e s' => .error e s'
          | .ok kept s' => .ok ⟨root, .ok kept.length⟩ s' := by
  -- The settings are read from the host, and the store takes no part in that.
  have hsettings : onHost (Settings.load root) s =
      match Settings.found s.host.room s.host.files s.host.cwd root with
      | .error e => .error e s
      | .ok config => .ok config s := by
    unfold onHost
    rw [Settings.load_eq]
    cases Settings.found s.host.room s.host.files s.host.cwd root <;> rfl
  unfold execute
  cases hfound : Settings.found s.host.room s.host.files s.host.cwd root with
  | error e =>
    rw [hfound] at hsettings
    exact bind_of_error hsettings
  | ok config =>
    rw [hfound] at hsettings
    rw [bind_of_ok hsettings]
    dsimp only
    cases hanalyze : Analyzer.analyze root (Storage.output root) config.solcPath config.timeout
        s.host with
    | error e h =>
      refine bind_of_error ?_
      rw [onHost, hanalyze]
    | ok result h =>
      have hrun : onHost
        (Analyzer.analyze root (Storage.output root) config.solcPath config.timeout) s =
          .ok result ⟨s.store, h⟩ := onHost_eq_ok.2 ⟨hanalyze, rfl⟩
      rw [bind_of_ok hrun]
      cases result with
      | failed code reason => rfl
      | found code items =>
        dsimp only
        cases hingest : ingest root (items.map .document) ⟨s.store, h⟩ with
        | error e s' => exact bind_of_error hingest
        | ok kept s' => rw [bind_of_ok hingest]; rfl

theorem execute_cases (hexecute : execute root s = .ok outcome s') :
    ∃ config result h, Settings.found s.host.room s.host.files s.host.cwd root = .ok config ∧
      Analyzer.analyze root (Storage.output root) config.solcPath config.timeout s.host =
        .ok result h ∧
      ((∃ code reason, result = .failed code reason ∧ outcome = ⟨root, .error reason⟩ ∧
          s' = ⟨s.store, h⟩) ∨
        ∃ code items kept, result = .found code items ∧
          ingest root (items.map .document) ⟨s.store, h⟩ = .ok kept s' ∧
          outcome = ⟨root, .ok kept.length⟩) := by
  rw [execute_eq] at hexecute
  cases hfound : Settings.found s.host.room s.host.files s.host.cwd root with
  | error e =>
    rw [hfound] at hexecute
    cases hexecute
  | ok config =>
    rw [hfound] at hexecute
    dsimp only at hexecute
    cases hanalyze : Analyzer.analyze root (Storage.output root) config.solcPath config.timeout
        s.host with
    | error e h =>
      rw [hanalyze] at hexecute
      cases hexecute
    | ok result h =>
      rw [hanalyze] at hexecute
      refine ⟨config, result, h, rfl, hanalyze, ?_⟩
      cases result with
      | failed code reason =>
        cases hexecute
        exact .inl ⟨code, reason, rfl, rfl, rfl⟩
      | found code items =>
        dsimp only at hexecute
        cases hingest : ingest root (items.map .document) ⟨s.store, h⟩ with
        | error e s' =>
          rw [hingest] at hexecute
          cases hexecute
        | ok kept s' =>
          rw [hingest] at hexecute
          cases hexecute
          exact .inr ⟨code, items, kept, rfl, hingest, rfl⟩

namespace Outcome

theorem isOk_eq_true {o : Outcome} : o.isOk = true ↔ ∃ count, o.result = .ok count := by
  unfold isOk
  cases o.result <;> simp

theorem isOk_eq_false {o : Outcome} : o.isOk = false ↔ ∃ reason, o.result = .error reason := by
  unfold isOk
  cases o.result <;> simp

end Outcome

theorem execute_of_answer {isOk : Bool}
    (h : (answer? (execute root) s).map Outcome.isOk = some isOk) :
    ∃ outcome, execute root s = .ok outcome (sessionAfter (execute root) s) ∧
    outcome.isOk = isOk := by
  obtain ⟨outcome, hanswer, hisOk⟩ := Option.map_eq_some_iff.1 h
  obtain ⟨found, hrun⟩ := eq_ok_of_answer (Option.isSome_iff_exists.2 ⟨_, hanswer⟩)
  rw [answer?, hrun] at hanswer
  cases hanswer
  exact ⟨outcome, hrun, hisOk⟩

/-- Whether the path at which a run leaves its document is one for the run and for the process that
starts it, once the place has been cleared. -/
def WritesThere (root : Path) (h : Host) : Prop :=
  ∀ h₂, Analyzer.prepare (Storage.output root) h = .ok () h₂ →
    Analyzer.SamePlaces h₂ root (Storage.output root)

/-- **A failed analysis touches no findings, and a successful one hands in what its run has left.**
All that a failed analysis changes is what is at the place of the run's document, and directories
that it makes; so whatever stored findings can be read without that place are read as before. -/
theorem analysis_keeps_or_replaces_findings {path : String}
    (hwrites : WritesThere (Path.ofString path) s.host)
    (hexecute : execute (Path.ofString path) s = .ok outcome s') :
    (∀ reason, outcome.result = .error reason →
      s'.store = s.store ∧ (∀ root, get root s' = get root s) ∧
        ∃ out, out.getLast? = some "analyzer-output.json" ∧
          s.host.files.ChangedIn (· = out) s'.host.files ∧
          ∀ root bytes,
            (s.host.files.erase out).readFile s.host.cwd (Storage.results root) = .ok bytes →
            s'.host.files.readFile s'.host.cwd (Storage.results root) = .ok bytes) ∧
    ∀ count, outcome.result = .ok count →
      ∃ items h,
        Analyzer.Reports s.host.room (s.host.tool.analyze (s.host.key (Path.ofString path)))
          items ∧
        h.cwd = s.host.cwd ∧
        (∃ out, out.getLast? = some "analyzer-output.json" ∧
          s.host.files.ChangedIn (· = out) h.files) ∧
        ingest (Path.ofString path) (items.map .document) ⟨s.store, h⟩ =
          .ok (get (Path.ofString path) s') s' ∧
        count = (get (Path.ofString path) s').length := by
  obtain ⟨config, result, h, -, hanalyze, hcases⟩ := execute_cases hexecute
  obtain ⟨⟨out, hname, hchanged⟩, hhost, hreports⟩ :=
    Analyzer.analyze_changes (by decide) (by decide) hwrites hanalyze
  have hcwd : h.cwd = s.host.cwd := by rw [hhost]
  rcases hcases with ⟨code, reason, rfl, rfl, rfl⟩ | ⟨code, items, kept, rfl, hingest, rfl⟩
  · refine ⟨fun _ _ => ⟨rfl, fun root => ?_, out, hname, hchanged, fun root bytes hread => ?_⟩,
      nofun⟩
    · exact congrArg s.store.getKey (key_of_cwd hcwd root)
    · dsimp only
      rw [hcwd, FileTree.readFile_eq_ok]
      exact FileTree.status_mono hchanged.extends_erase (FileTree.readFile_eq_ok.1 hread)
  · refine ⟨nofun, fun count hcount => ?_⟩
    obtain ⟨-, -, hget⟩ := replaceAll_eq_ok hingest
    rw [hget]
    exact ⟨items, h, hreports code items rfl, hcwd, ⟨out, hname, hchanged⟩, hingest,
      (Except.ok.inj hcount).symm⟩

/-- A run in the directory of the process that starts it means what the process means. -/
theorem writesThere_here (h : Host) : WritesThere (Path.ofString "") h := by
  refine fun h₂ _ => Analyzer.samePlaces_of_cwd (fun directory hdirectory => ?_)
  have hlocate : h₂.files.locate h₂.cwd .target (Path.ofString "") = .ok h₂.cwd := by
    rw [FileTree.locate, if_neg (by decide), if_neg (by decide)]
    rfl
  obtain ⟨hplace, -⟩ := Analyzer.runDirectory_eq_ok.1 hdirectory
  rw [hlocate] at hplace
  exact (Except.ok.inj hplace).symm

/-- An analyser that can be started and leaves a document with one finding. -/
def workingTool : Analyzer.Tool :=
  { Analyzer.Tool.missing with
    presence := .executable
    analyze := fun _ => { Analyzer.Behaviour.silent with
      leaving := .file (Utf8.encode "[\x7b\"check\":\"y\"\x7d]") } }

/-- The session of a store with a finding, in a world with that analyser. -/
def equippedSession : Session :=
  { plainSession with host := { plainSession.host with tool := workingTool } }

/-- Where no place has a name nothing goes with a place of that name. -/
theorem erase_of_unlisted {t : FileTree} {out : Place} {name : String}
    (hout : out.getLast? = some name)
    (hentries : ∀ e ∈ t.entries, e.1.getLast? ≠ some name) : t.erase out = t := by
  have hkept : t.entries.filter (fun e => e.1 != out) = t.entries := by
    refine List.filter_eq_self.2 (fun e he => bne_iff_ne.2 ?_)
    rintro rfl
    exact hentries e he hout
  rw [FileTree.erase, hkept]

/-- Without an analyser the findings stay, in memory and on disk; with one they are replaced. -/
theorem analysis_keeps_or_replaces_findings_plain :
    (∃ outcome s' bytes, execute (Path.ofString "") plainSession = .ok outcome s' ∧
      outcome.isOk = false ∧ get (Path.ofString "") s' = get (Path.ofString "") plainSession ∧
      plainSession.host.files.readFile plainSession.host.cwd (Storage.results (Path.ofString "")) =
        .ok bytes ∧
      s'.host.files.readFile s'.host.cwd (Storage.results (Path.ofString "")) = .ok bytes) ∧
    ∃ outcome s' items, execute (Path.ofString "") equippedSession = .ok outcome s' ∧
      outcome.isOk = true ∧
      Analyzer.Reports equippedSession.host.room
        (workingTool.analyze (equippedSession.host.key (Path.ofString ""))) items ∧
      (get (Path.ofString "") s').map Finding.check = ["y"] := by
  constructor
  · obtain ⟨outcome, hrun, hisOk⟩ := execute_of_answer (show (answer? (execute (Path.ofString ""))
      plainSession).map Outcome.isOk = some false by decide +kernel)
    obtain ⟨reason, hreason⟩ := Outcome.isOk_eq_false.1 hisOk
    obtain ⟨bytes, hread⟩ := Option.isSome_iff_exists.1 (show (plainSession.host.files.readFile
      plainSession.host.cwd (Storage.results (Path.ofString ""))).toOption.isSome by decide +kernel)
    have hthere := eq_ok_of_toOption hread
    obtain ⟨-, hget, out, hname, -, hkept⟩ :=
      (analysis_keeps_or_replaces_findings (writesThere_here _) hrun).1 reason hreason
    refine ⟨outcome, _, bytes, hrun, hisOk, hget _, hthere, hkept _ bytes ?_⟩
    rw [erase_of_unlisted hname (by decide +kernel)]
    exact hthere
  · obtain ⟨outcome, hrun, hisOk⟩ := execute_of_answer (show (answer? (execute (Path.ofString ""))
      equippedSession).map Outcome.isOk = some true by decide +kernel)
    obtain ⟨count, hcount⟩ := Outcome.isOk_eq_true.1 hisOk
    obtain ⟨items, h, hreports, -⟩ :=
      (analysis_keeps_or_replaces_findings (writesThere_here _) hrun).2 count hcount
    exact ⟨outcome, _, items, hrun, hisOk, hreports, by decide +kernel⟩

/-- A session without an analyser in which the stored findings of one workspace are a link to the
document of a run in another. -/
def crossedSession : Session :=
  { emptySession with host := { emptySession.host with
      files := ((((emptySession.host.files.insert ["w", ".slither"] .directory).insert
        ["w", ".slither", "analyzer-output.json"] (.file (Utf8.encode "[]"))).insert
        ["w", "v"] .directory).insert ["w", "v", ".slither"] .directory).insert
        ["w", "v", ".slither", "analysis-results.json"]
        (.link "../../.slither/analyzer-output.json") } }

/-- Removing the document of the run before takes stored findings away that are a link to it. -/
theorem findings_lost_behind_output_link :
    ∃ (path other : String) (s s' : Session) (outcome : Outcome) (bytes : List UInt8),
      s.host.files.Grounded s.host.cwd ∧ WritesThere (Path.ofString path) s.host ∧
        execute (Path.ofString path) s = .ok outcome s' ∧ outcome.isOk = false ∧
        s.host.files.readFile s.host.cwd (Storage.results (Path.ofString other)) = .ok bytes ∧
        s'.host.files.readFile s'.host.cwd (Storage.results (Path.ofString other)) ≠ .ok bytes := by
  obtain ⟨outcome, hrun, hisOk⟩ := execute_of_answer (show (answer? (execute (Path.ofString ""))
    crossedSession).map Outcome.isOk = some false by decide +kernel)
  obtain ⟨bytes, hread⟩ := Option.isSome_iff_exists.1 (show (crossedSession.host.files.readFile
    crossedSession.host.cwd (Storage.results (Path.ofString "v"))).toOption.isSome by
      decide +kernel)
  refine ⟨"", "v", crossedSession, _, outcome, bytes, grounded_of_cwd (by decide +kernel)
    (by decide +kernel), writesThere_here _, hrun, hisOk, eq_ok_of_toOption hread, fun hafter => ?_⟩
  have hgone : ((sessionAfter (execute (Path.ofString "")) crossedSession).host.files.readFile
      (sessionAfter (execute (Path.ofString "")) crossedSession).host.cwd
      (Storage.results (Path.ofString "v"))).toOption = none := by decide +kernel
  rw [hafter] at hgone
  cases hgone

end SourceDrift.Analysis
