/-
From a path to the place it leads to.

The parts of a path are followed one by one from a directory. A double dot goes
back to the directory above; a link is replaced by what it points at, except at
the end of the path where it may be asked for itself. Only the last part may be
missing. After forty links the walk gives up, and so it always ends: within one
link the parts get fewer, and the links are counted.

Unlike a path, the target of a link keeps what stands at its end. A slash or a dot
there is a last part that leads nowhere, so that what is before it has to be a
directory.
-/
import SourceDrift.FileTree.Basic
import SourceDrift.Failure

set_option autoImplicit false

namespace SourceDrift.FileTree

/-- What a walk is for. -/
inductive Aim where
  /-- The entry itself, even if it is a link. -/
  | entry
  /-- What is there, links followed. -/
  | target
  /-- A file to be written, made if it is missing. -/
  | writing
  deriving DecidableEq

/-- Whether a name is longer than a directory can hold. -/
def isLongName (name : String) : Bool :=
  255 < name.utf8ByteSize

/-- Whether a part leads nowhere: a single dot, or what is behind a slash at the end. -/
def isIdle (part : String) : Bool :=
  part = "" || part = "."

/-- The parts of a link's target. Of the parts that lead nowhere only one at the end
stays. -/
def targetParts (target : String) : List String :=
  let pieces := (Text.splitOn '/' target.toList).map String.ofList
  pieces.filter (!isIdle ·) ++
    -- Behind a dot any slashes at the end add nothing.
    match pieces.getLast?, (pieces.filter (· != "")).getLast? with
    | _, some "." => ["."]
    | some "", some _ => [""]
    | _, _ => []

/-- Follows parts from a place to the place they lead to. `onLink` goes on where a
link has to be followed: from a place, with the parts of its target and those
behind it. -/
def walkWith (onLink : Place → List String → Except SystemError Place) (t : FileTree)
    (aim : Aim) (here : Place) : List String → Except SystemError Place
  | [] => .ok here
  | name :: rest =>
    if isIdle name then walkWith onLink t aim here rest
    else if name = ".." then walkWith onLink t aim here.dropLast rest
    -- A name with a slash behind it is no name for a file.
    else if aim = .writing ∧ rest = [""] then .error .isADirectory
    else if isLongName name then .error .nameTooLong
    else
      match t.node? (here ++ [name]) with
      -- Only at the end may something be missing: a file is made there.
      | none => if rest.isEmpty then .ok (here ++ [name]) else .error .notFound
      | some .directory => walkWith onLink t aim (here ++ [name]) rest
      | some (.file _) => if rest.isEmpty then .ok (here ++ [name]) else .error .notADirectory
      | some (.link target) =>
        if rest.isEmpty ∧ aim = .entry then .ok (here ++ [name])
        else
          onLink (if (Path.ofString target).isAbsolute then [] else here)
            (targetParts target ++ rest)

/-- Follows parts from a place, with at most `links` links on the way. -/
def walk (t : FileTree) (aim : Aim) : Nat → Place → List String → Except SystemError Place
  | 0 => walkWith (fun _ _ => .error .tooManyLinks) t aim
  | links + 1 => walkWith (walk t aim links) t aim

/-- The most bytes that a path may have. -/
def longestPath : Nat := 4095

/-- The place that a path leads to, seen from a directory. -/
def locate (t : FileTree) (cwd : Place) (aim : Aim) (p : Path) : Except Failure Place :=
  if p.hasNul then .error .embeddedNul
  else if longestPath < p.toString.utf8ByteSize then .error (.system .nameTooLong p.toString)
  else
    match t.walk aim 40 (if p.isAbsolute then [] else cwd) p.parts with
    | .ok place => .ok place
    | .error cause => .error (.system cause p.toString)

/-- What is at a path, links followed. -/
def status (t : FileTree) (cwd : Place) (p : Path) : Except Failure Node :=
  match t.locate cwd .target p with
  | .error e => .error e
  | .ok place =>
    match t.node? place with
    | none => .error (.system .notFound p.toString)
    | some node => .ok node

/-- Whether something at a path passes a test. A path that cannot be followed leads
to nothing; other failures stay failures. -/
def test (t : FileTree) (cwd : Place) (p : Path) (passes : Node → Bool) : Except Failure Bool :=
  match t.status cwd p with
  | .ok node => .ok (passes node)
  | .error .embeddedNul => .ok false
  | .error (.system cause path) =>
    if cause.meansAbsent then .ok false else .error (.system cause path)
  | .error e => .error e

/-- Whether something is at a path. -/
def exists? (t : FileTree) (cwd : Place) (p : Path) : Except Failure Bool :=
  t.test cwd p fun _ => true

/-- Whether a directory is at a path. -/
def isDirectory? (t : FileTree) (cwd : Place) (p : Path) : Except Failure Bool :=
  t.test cwd p (· == .directory)

end SourceDrift.FileTree
