/-
What a command does: it works on the world, prints, and may stop.

A command stops by asking for an exit code or by a failure that nothing has caught.
What has been printed and done up to then stays.
-/
import SourceDrift.Cli.Output
import SourceDrift.Cli.Theme
import SourceDrift.FileTree.Resolve
import SourceDrift.Store.Basic
import SourceDrift.Workspace.Settings

set_option autoImplicit false

namespace SourceDrift.Cli

/-- The world and what has been printed. -/
structure Terminal where
  host : Host
  printed : List Printed

/-- Why a command stops early. -/
inductive Stop where
  | exit (code : Nat)
  | failure (e : Failure)

/-- What a command does. -/
abbrev Script (α : Type) := EStateM Stop Terminal α

namespace Script

variable {α : Type}

/-- Prints something, unless the console cannot make out the styles of a text in it. -/
def print (p : Printed) : Script Unit := fun t =>
  match p.styledTexts.findSome? t.host.platform.markupFault with
  | some message => .error (.failure (.markup message)) t
  | none => .ok () { t with printed := t.printed ++ [p] }

/-- Prints text with styles in it. -/
def markup (text : String) : Script Unit := print (.markup text)

/-- Prints text that stands for itself. -/
def plain (text : String) : Script Unit := print (.plain text)

/-- Prints an empty line. -/
def blank : Script Unit := print .blank

/-- Prints lines that stand for themselves. -/
def plainLines : List String → Script Unit
  | [] => .pure ()
  | line :: rest => do
    plain line
    plainLines rest

/-- An action on the world. -/
def onHost (x : Action α) : Script α := fun t =>
  match x t.host with
  | .ok a host => .ok a { t with host := host }
  | .error e host => .error (.failure e) { t with host := host }

/-- An action on a store, with the store after it. -/
def onStore (store : Store) (x : StoreAction α) : Script (α × Store) := fun t =>
  match x ⟨store, t.host⟩ with
  | .ok a s => .ok (a, s.store) { t with host := s.host }
  | .error e s => .error (.failure e) { t with host := s.host }

/-- Ends the command with an exit code. -/
def exit (code : Nat) : Script α := fun t => .error (.exit code) t

end Script

/-! ## Opening a workspace -/

/-- The root of the workspace that is named, its links resolved; the current
directory if none is. -/
def workspaceRoot (name : Option String) : Script Path :=
  Script.onHost (Action.query fun t cwd => t.resolve cwd (Path.ofString (name.getD ".")))

/-- A workspace with its settings and its findings. -/
structure Opened where
  root : Path
  config : Config
  store : Store
  findings : List Finding

/-- Opens a workspace. -/
def openWorkspace (name : Option String) : Script Opened := do
  let root ← workspaceRoot name
  let config ← Script.onHost (Settings.load root)
  let (_, store) ← Script.onStore (Store.empty config.collapse) (Store.load root)
  let t ← get
  pure ⟨root, config, store, Store.get root ⟨store, t.host⟩⟩

end SourceDrift.Cli
