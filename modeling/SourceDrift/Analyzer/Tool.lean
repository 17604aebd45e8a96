/-
The analyser as the outside sees it.

The analyser is another program. All that this library depends on is what a run of
it leaves behind: what it prints, how it ends, and what it puts at the path it was
told to write to. A run that is stopped before its end may have put something
there too, and a run that cannot write says so.
-/
import SourceDrift.Failure

set_option autoImplicit false

namespace SourceDrift.Analyzer

/-- What a run puts at the path it was told to write to. -/
inductive Leaving where
  | nothing
  | file (bytes : List UInt8)
  | directory
  deriving DecidableEq

/-- What a run of the analyser does. -/
structure Behaviour where
  stdout : List UInt8
  stderr : List UInt8
  /-- The exit code; below zero for a run that a signal ended. -/
  exitCode : Int
  leaving : Leaving
  /-- What it has put there if it is stopped before its end. -/
  stopped : Leaving
  /-- How it ends if nothing can be put there: its exit code and its complaints. -/
  refused : Failure → Int × List UInt8
  /-- Whether the run goes on for longer than anyone waits. -/
  hangs : Bool

namespace Behaviour

/-- A run that does nothing and ends well. -/
def silent : Behaviour where
  stdout := []
  stderr := []
  exitCode := 0
  leaving := .nothing
  stopped := .nothing
  refused _ := (0, [])
  hangs := false

end Behaviour

/-- Whether the analyser can be started. -/
inductive Presence where
  | absent
  | notExecutable
  | executable
  deriving DecidableEq

/-- The installed analyser. -/
structure Tool where
  /-- The name it is started by. -/
  command : String
  presence : Presence
  /-- What it does when asked for its version. -/
  version : Behaviour
  /-- What it does when asked for its rules. -/
  detectors : Behaviour
  /-- What it does on a workspace, by the comparable form of the workspace's path. -/
  analyze : String → Behaviour

namespace Tool

/-- No analyser at all; it is looked for by its plain name. -/
def missing : Tool :=
  ⟨"slither", .absent, .silent, .silent, fun _ => .silent⟩

end Tool
end SourceDrift.Analyzer
