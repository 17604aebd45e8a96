/-
Actions on the outside world.

The world is a file system, the directory that relative paths start from, what the
libraries underneath bring with them, and the installed analyser with a record of
how it was started. An action answers a value or a failure together with the world
after it; a failing action keeps what it has done up to then.
-/
import SourceDrift.Analyzer.Tool
import SourceDrift.FileTree.Operations
import SourceDrift.FileTree.Resolve

set_option autoImplicit false

namespace SourceDrift

/-- What the libraries underneath bring with them, and what no one looks into here. -/
structure Platform where
  /-- The levels of a document that there is room for beyond those that there always is. -/
  spare : Nat
  /-- What the console finds wrong with the styles in a text, if anything. -/
  markupFault : String → Option String
  /-- The name that a log gets from a template, or the kind of a fault and its words. -/
  logName : String → Except (String × String) String

namespace Platform

/-- The levels of a document that there is always room for. -/
def assuredLevels : Nat := 500

/-- A platform that has nothing to spare, prints whatever it is given, and names a log
as it is told. -/
def plain : Platform where
  spare := 0
  markupFault _ := none
  logName name := .ok name

end Platform

/-- The outside world. -/
structure Host where
  files : FileTree
  cwd : Place
  platform : Platform
  tool : Analyzer.Tool
  /-- The arguments of each run of the analyser so far, the latest last. -/
  calls : List (List String)

namespace Host

/-- The levels of a document that there is room for. -/
def room (h : Host) : Nat := Platform.assuredLevels + h.platform.spare

theorem assuredLevels_le_room (h : Host) : Platform.assuredLevels ≤ h.room := Nat.le_add_right ..

end Host

/-- What changes the world and may fail. -/
abbrev Action (α : Type) := EStateM Failure Host α

namespace Action

variable {α : Type}

/-- The answer of an action, or a failure of the class that is caught, as a value. Any
other failure goes on. -/
def catching (caught : Failure → Bool) (x : Action α) : Action (Except Failure α) := fun h =>
  match x h with
  | .ok a h => .ok (.ok a) h
  | .error e h => if caught e then .ok (.error e) h else .error e h

/-- An answer that is there already, or a failure. -/
def ofExcept : Except Failure α → Action α
  | .ok a => fun h => .ok a h
  | .error e => fun h => .error e h

/-- What can be read off the files. -/
def query (f : FileTree → Place → Except Failure α) : Action α := fun h =>
  match f h.files h.cwd with
  | .ok a => .ok a h
  | .error e => .error e h

/-- A single operation on the files. -/
def change (f : FileTree → Place → Except Failure FileTree) : Action Unit := fun h =>
  match f h.files h.cwd with
  | .ok files => .ok () { h with files := files }
  | .error e => .error e h

end Action

namespace Host

/-- **The comparable form of a path**, seen from the world's directory. -/
def key (h : Host) (p : Path) : String := p.key h.cwd

@[simp] theorem key_withFiles (h : Host) (files : FileTree) (p : Path) :
    key { h with files := files } p = h.key p := rfl

@[simp] theorem room_withFiles (h : Host) (files : FileTree) :
    room { h with files := files } = h.room := rfl

/-! ## Files -/

/-- Whether something is at a path. -/
def exists? (p : Path) : Action Bool := Action.query fun t cwd => t.exists? cwd p

/-- The text of a file. -/
def readText (p : Path) : Action String := Action.query fun t cwd => t.readText cwd p

/-- Writes a file. -/
def writeText (p : Path) (text : String) : Action Unit :=
  Action.change fun t cwd => t.writeFile cwd p (Utf8.encode text)

/-- Makes a file, unless there is one. -/
def ensureFile (p : Path) : Action Unit := Action.change fun t cwd => t.ensureFile cwd p

/-- Makes a directory with those above it. -/
def makeDirectories (p : Path) : Action Unit := fun h =>
  match FileTree.makeDirectories p.parts.length h.files h.cwd p with
  | (.ok (), files) => .ok () { h with files := files }
  | (.error e, files) => .error e { h with files := files }

/-- Makes the directories on a path that are missing, the first of them first. -/
def fillDirectories (p : Path) : Action Unit := fun h =>
  match FileTree.fillDirectories p.parts.length h.files h.cwd p with
  | (.ok (), files) => .ok () { h with files := files }
  | (.error e, files) => .error e { h with files := files }

/-- Removes a file, if there is one. -/
def unlinkIfPresent (p : Path) : Action Unit := Action.change fun t cwd => t.unlinkIfPresent cwd p

/-- Takes the lock that guards a workspace's findings: makes its directory, and
its file if there is none. The file is opened, and named in a failure, by its real
path, so that a lock is one however a workspace is reached; it keeps what is in it.
No one else holds it, and nothing is left to do when it is given back. -/
def lock (p : Path) : Action Unit := do
  makeDirectories p.parent
  let directory ← Action.query fun t cwd => t.resolve cwd p.parent
  Action.change fun t cwd => t.ensureUnlinked cwd (directory.child p.name)

/-! ## Replacing a file as a whole -/

/-- The name of a temporary file beside the stored findings. The stars stand for
the part that is chosen so that the name is new. -/
def temporaryName (stars : Nat) : String :=
  ".analysis-results_" ++ String.ofList (List.replicate stars '*') ++ ".tmp"

/-- The temporary file's name in a failure. -/
def temporaryShown (directory : Path) : String :=
  (directory.child (temporaryName 1)).toString

/-- Makes a new temporary file in a directory and answers its path. Names are
tried until one is free; `tries` bounds their number. -/
def createTemporary (directory : Path) (stars : Nat) : Nat → Action Path
  | 0 => fun h => .error (.system .alreadyExists (temporaryShown directory)) h
  | tries + 1 => fun h =>
    match h.files.createFile h.cwd (directory.child (temporaryName stars)) with
    | .ok files => .ok (directory.child (temporaryName stars)) { h with files := files }
    | .error (.system .alreadyExists _) => createTemporary directory (stars + 1) tries h
    | .error (.system cause _) => .error (.system cause (temporaryShown directory)) h
    | .error e => .error e h

/-- **Replaces a file as a whole**: the text goes to a temporary file beside it,
which is then moved over it, so that whoever reads the file finds the old text or
the new one. If that fails, the temporary file is removed, unless the failure is an
end from outside. -/
def replaceFile (p : Path) (text : String) : Action Unit := do
  makeDirectories p.parent
  let h ← get
  -- The temporary file is named from the root, whatever the path starts from.
  let directory := p.parent.normalize h.cwd
  let temporary ← createTemporary directory 1 (h.files.entries.length + 1)
  let outcome ← Action.catching Failure.isException do
    writeText temporary text
    Action.change fun t cwd => t.moveFile cwd temporary (temporaryShown directory) p
  match outcome with
  | .ok () => pure ()
  | .error e => do
    unlinkIfPresent temporary
    throw e

end Host
end SourceDrift
