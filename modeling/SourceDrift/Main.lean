/-
The program on a machine: reads the files that a command line can reach, runs the
command on them, and carries out what it has changed.

The files are those below the current directory and below the paths that the
command line names. What cannot be read counts as missing, and so does the
analyser, because no other program is started from here: the commands on stored
findings do their work, and the others say that the analyser is missing.
-/
import SourceDrift.Cli.Program
import SourceDrift.Cli.Rendering
import SourceDrift.FileTree.Changes
import SourceDrift.LogName
import Std.Time.DateTime.Timestamp

set_option autoImplicit false

namespace SourceDrift.Machine

/-- The path of a place, as the machine takes it. -/
def pathOf (place : Place) : String := (Path.mk "/" place).toString

/-- The place of a path that the machine has answered. -/
def placeOf (path : String) : Place := (Path.ofString path).parts

/-- Adds a place and all below it to a tree. A link is kept as one to where it ends. -/
partial def addBelow (t : FileTree) (place : Place) : IO FileTree := do
  let file := (← IO.currentDir) / pathOf place
  try
    match (← file.symlinkMetadata).type with
    | .dir =>
      let mut t := t.insert place .directory
      for entry in ← file.readDir do
        t ← addBelow t (place ++ [entry.fileName])
      return t
    | .file => return t.insert place (.file (← IO.FS.readBinFile file).toList)
    | .symlink => return t.insert place (.link (← IO.FS.realPath file).toString)
    | .other => return t
  catch _ => return t

/-- Adds what is on the way from a place to the end of a list of names, and all
below that end; the end of a link on the way is added as well. -/
partial def addPath (t : FileTree) (here : Place) (names : List String) : IO FileTree := do
  match names with
  | [] => addBelow t here
  | name :: rest =>
    if name = ".." then addPath t here.dropLast rest
    else
      let place := here ++ [name]
      let file := (← IO.currentDir) / pathOf place
      let t ← try
          match (← file.symlinkMetadata).type with
          | .dir => pure (t.insert place .directory)
          | .symlink =>
            let target := (← IO.FS.realPath file).toString
            addPath (t.insert place (.link target)) [] (placeOf target ++ rest)
          | _ => pure t
        catch _ => pure t
      addPath t place rest

/-- The files that a command line can reach, seen from a directory. -/
def reachable (cwd : Place) (named : List String) : IO FileTree := do
  let mut t ← addPath .empty [] cwd
  for name in named do
    let path := Path.join ⟨"/", cwd⟩ (Path.ofString name)
    t ← addPath t [] path.parts
  return t

/-- Carries out a change. Links are not made by any command. -/
def carryOut (change : Change) : IO Unit := do
  match change with
  | .remove place .directory => IO.FS.removeDir (pathOf place)
  | .remove place _ => IO.FS.removeFile (pathOf place)
  | .make place .directory => IO.FS.createDirAll (pathOf place)
  | .make place (.file bytes) => IO.FS.writeBinFile (pathOf place) ⟨bytes.toArray⟩
  | .make _ (.link _) => pure ()

/-- Prints what a run has to say and answers its exit code. -/
def report (ending : Cli.Ending) : IO UInt32 := do
  for line in ending.printed.flatMap Cli.Printed.lines do
    IO.println line
  if let some e := ending.failure then IO.eprintln e.message
  else if ending.exitCode = 2 then IO.eprintln Cli.usage
  return ending.exitCode.toUInt32

/-- What this machine brings with it: room for documents of more than ten thousand levels,
a console that prints whatever it is given, and the names of logs at a moment. -/
def platform (now : Moment) : Platform where
  spare := 10000
  markupFault _ := none
  logName template := (LogName.ofTemplate now template).mapError fun p => (p.kind, p.message)

end SourceDrift.Machine

open SourceDrift in
/-- Runs a command line. -/
def main (args : List String) : IO UInt32 := do
  let cwd := Machine.placeOf (← IO.currentDir).toString
  let files ← Machine.reachable cwd (Cli.namedPaths args)
  let nanoseconds := (← Std.Time.Timestamp.now).toNanosecondsSinceUnixEpoch.val.toNat
  let now := Moment.sinceEpoch (nanoseconds / 1000)
  let (ending, host) := Cli.run args
    ⟨files, cwd, Machine.platform now, Analyzer.Tool.missing, []⟩
  (files.changesTo host.files).forM Machine.carryOut
  Machine.report ending
