/-
Analysing workspaces and keeping what was found.

The findings of an analysis replace those that were stored before. An analysis
that fails leaves the stored findings alone.
-/
import SourceDrift.Analyzer.Run
import SourceDrift.Store.Basic
import SourceDrift.Workspace.Settings

set_option autoImplicit false

namespace SourceDrift.Analysis

/-- How the analysis of a workspace ended: the number of findings that are kept, or
the reason why there are none. -/
structure Outcome where
  root : Path
  result : Except String Nat

namespace Outcome

/-- Whether the analysis went well. -/
def isOk (o : Outcome) : Bool :=
  match o.result with
  | .ok _ => true
  | .error _ => false

end Outcome

/-- **Analyses a workspace** with its settings and keeps the findings. -/
def execute (root : Path) : StoreAction Outcome := do
  let config ← Store.onHost (Settings.load root)
  let result ← Store.onHost
    (Analyzer.analyze root (Storage.output root) config.solcPath config.timeout)
  match result with
  | .failed _ reason => pure ⟨root, .error reason⟩
  | .found _ items =>
    let kept ← Store.ingest root (items.map .document)
    pure ⟨root, .ok kept.length⟩

/-- Analyses workspaces one after the other. -/
def executeAll : List Path → StoreAction (List Outcome)
  | [] => pure []
  | root :: rest => do
    let outcome ← execute root
    let outcomes ← executeAll rest
    pure (outcome :: outcomes)

end SourceDrift.Analysis
