/-
A workspace analysed alone.

What an analysis does to the world, and whether it has an outcome at all, has nothing to do with
what is in memory. `Stops` lists what keeps it from having one: things that are wrong with the
workspace and are not made a failed outcome.

An analysis touches nothing but the files that are its own, by their names, and directories that it
makes. So where these files are no links its outcome is the same after others have been analysed.
-/
import SourceDrift.Proofs.Analyzer.Elsewhere
import SourceDrift.Proofs.Workspace.Analysis

set_option autoImplicit false

namespace SourceDrift

open SourceDrift.Action

/-! ## Handing in -/

namespace Store

/-- What a workspace keeps of what is handed in. -/
def taken (root : Path) (items : List Incoming) (h : Host) : List Finding :=
  (Sync.capture (sources h) root false (Finding.distinct (readIncoming items))).1

end Store

namespace Analysis

open Store

variable {root : Path} {h h' : Host} {s s' : Session} {outcome : Outcome} {e : Failure}

/-! ## A workspace alone -/

/-- What is seen of an action by someone who looks at the world alone. -/
def seen {ε σ α : Type} (world : σ → Host) (x : EStateM ε σ α) (s : σ) : EStateM.Result ε Host α :=
  match x s with
  | .ok a s' => .ok a (world s')
  | .error e s' => .error e (world s')

section

variable {ε σ α : Type} {world : σ → Host} {x : EStateM ε σ α} {s : σ} {h' : Host}

end

/-- The analysis of a workspace with nothing in memory. -/
def alone (root : Path) : Action Outcome := fun h =>
  seen Session.host (execute root) ⟨Store.empty .always, h⟩

/-- Why a workspace stops a batch: it has no settings, the analysis breaks off, or what it has found
has no canonical forms or cannot be stored. -/
inductive Stops (root : Path) (h : Host) : Failure → Prop
  | settings {e : Failure} : Settings.Unusable h.room h.files h.cwd root e → Stops root h e
  | analysis {e : Failure} {config : Config} :
      Settings.found h.room h.files h.cwd root = .ok config →
      Analyzer.Breaks root (Storage.output root) config.solcPath config.timeout h e → Stops root h e
  | forms {e : Failure} {config : Config} {code : Int} {items : List Json} {h₂ : Host} :
      Settings.found h.room h.files h.cwd root = .ok config →
      Analyzer.analyze root (Storage.output root) config.solcPath config.timeout h =
        .ok (.found code items) h₂ →
      (readItems items).findSome? Finding.formFailure? = some e → Stops root h e
  | storage {e : Failure} {config : Config} {code : Int} {items : List Json} {h₂ h₃ : Host} :
      Settings.found h.room h.files h.cwd root = .ok config →
      Analyzer.analyze root (Storage.output root) config.solcPath config.timeout h =
        .ok (.found code items) h₂ →
      (readItems items).findSome? Finding.formFailure? = none →
      Repository.save root (taken root (items.map .document) h₂) h₂ = .error e h₃ → Stops root h e

section

variable {node : Node} {place : Place}

/-- A workspace stops a batch if the place of the analyser's document cannot be cleared. -/
theorem stops_of_prepare
    (hprepare : ∀ h', Analyzer.prepare (Storage.output root) h ≠ .ok () h') :
    ∃ e, Stops root h e := by
  cases hfound : Settings.found h.room h.files h.cwd root with
  | error e => exact ⟨e, .settings (Settings.found_eq_error.1 hfound)⟩
  | ok config =>
    cases hrun : Analyzer.prepare (Storage.output root) h with
    | ok _ h' => exact absurd hrun (hprepare h')
    | error e h' => exact ⟨e, .analysis hfound (.place hrun)⟩

/-- **A file in the place of the workspace's directory** stops a batch. -/
theorem stops_of_file (hcwd : h.files.Grounded h.cwd)
    (hthere : h.files.status h.cwd (Storage.directory root) = .ok node)
    (hnode : node ≠ .directory) :
    ∃ e, Stops root h e := by
  refine stops_of_prepare (fun h' hprepare => ?_)
  obtain ⟨files, -, hmade, -⟩ := Analyzer.prepare_eq_ok.1 hprepare
  rw [Storage.output, Path.parent_child] at hmade
  have hdirectory := FileTree.isDirectory_of_makeDirectories hcwd hmade
  -- Making directories leaves what is there, so that there is none in the place of the file.
  have hextends := FileTree.extends_of_makeDirectories hmade
  obtain ⟨found, hfound, hisDirectory⟩ := FileTree.test_eq_true.1 hdirectory
  rw [FileTree.status_mono hextends hthere] at hfound
  cases hfound
  exact hnode (beq_iff_eq.1 hisDirectory)

/-- **A directory in the place of the analyser's document** stops a batch. -/
theorem stops_of_directory (hlocate : h.files.locate h.cwd .entry (Storage.output root) = .ok place)
    (hnode : h.files.node? place = some .directory) : ∃ e, Stops root h e := by
  refine stops_of_prepare (fun h' hprepare => ?_)
  obtain ⟨files, _, hmade, hremoved, -⟩ := Analyzer.prepare_eq_ok.1 hprepare
  have hextends := FileTree.extends_of_makeDirectories hmade
  -- The way that was there is there still, and what it leads to cannot be unlinked.
  obtain ⟨hpass, hwalk⟩ := FileTree.locate_eq_ok.1 hlocate
  have hlocate' := FileTree.locate_eq_ok.2 ⟨hpass, FileTree.walk_mono hextends hnode hwalk⟩
  rw [FileTree.unlinkIfPresent_eq hlocate', hextends _ _ hnode] at hremoved
  cases hremoved

end

/-! ## What an analysis touches -/

end Analysis
end SourceDrift
