/-
The program as a whole: a command line, run in a world.

The exit code is 0 for a command that ends by itself and for help, 1 for a command
that gives up or fails, and 2 for a command line that is refused.
-/
import SourceDrift.Cli.Analyses
import SourceDrift.Cli.Command
import SourceDrift.Cli.Findings

set_option autoImplicit false

namespace SourceDrift.Cli

open Script

/-- Makes the log file that is asked for, with the directories above it. A file that
is there is kept. The directories are made for the template as it stands and for the
name that comes of it. -/
def openLog (template : Path) : Action Unit := do
  Host.makeDirectories template.parent
  let h ← get
  let name ← Action.ofExcept ((h.platform.logName template.toString).mapError fun (kind, message) =>
    .unnamedLog kind message)
  let log := (Path.ofString name).normalize h.cwd
  Host.fillDirectories log.parent
  Host.ensureFile log

/-- Runs a command. -/
def runCommand : Command → Script Unit
  | .analyze workspaces quiet => Analyses.analyze workspaces quiet
  | .detectors impact => Analyses.detectors impact
  | .list workspace all => Findings.list workspace all
  | .show n workspace => Findings.show_ n workspace
  | .validate workspace changed => Findings.validate workspace changed
  | .goto n element workspace => Findings.goto n element workspace
  | .diagnostics workspace => Findings.diagnostics workspace
  | .clear workspace => Findings.clear workspace

/-- What a command line that is refused comes to. -/
def refuse {α : Type} : Refusal → Script α
  | .usage _ => exit 2
  | .help => exit 0

/-- Reads a command line and runs its command. The program's own options take
effect before the command's are read. -/
def script (args : List String) : Script Unit := do
  match Command.readProgram args with
  | .error e => refuse e
  | .ok (options, name, args) =>
    match options.value? "log-file" with
    | some log => onHost (openLog (Path.ofString log))
    | none => pure ()
    match Command.readCommand name args with
    | .error e => refuse e
    | .ok command => runCommand command

/-- The paths that a command line names, as far as it can be read. -/
def namedPaths (args : List String) : List String :=
  match Command.readProgram args with
  | .error _ => []
  | .ok (options, name, args) =>
    (options.value? "log-file").toList ++
      match Command.readCommand name args with
      | .error _ => []
      | .ok command => command.paths

/-- How a run of the program ended. -/
structure Ending where
  exitCode : Nat
  failure : Option Failure
  printed : List Printed

/-- **Runs the program** on a command line: how it ended, and the world after it. -/
def run (args : List String) (h : Host) : Ending × Host :=
  match script args ⟨h, []⟩ with
  | .ok () t => (⟨0, none, t.printed⟩, t.host)
  | .error (.exit code) t => (⟨code, none, t.printed⟩, t.host)
  | .error (.failure e) t => (⟨1, some e, t.printed⟩, t.host)

end SourceDrift.Cli
