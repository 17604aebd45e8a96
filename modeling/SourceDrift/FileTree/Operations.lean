/-
Single operations on a file system.

Each of them either fails and changes nothing or answers the tree after it; what
is made of several of them belongs to whoever puts them together.
-/
import SourceDrift.FileTree.Walk

set_option autoImplicit false

namespace SourceDrift.FileTree

/-- The bytes of the file at a path. -/
def readFile (t : FileTree) (cwd : Place) (p : Path) : Except Failure (List UInt8) :=
  match t.status cwd p with
  | .error e => .error e
  | .ok (.file bytes) => .ok bytes
  | .ok _ => .error (.system .isADirectory p.toString)

/-- The text of the file at a path. -/
def readText (t : FileTree) (cwd : Place) (p : Path) : Except Failure String :=
  match t.readFile cwd p with
  | .error e => .error e
  | .ok bytes =>
    match Utf8.decodeText bytes with
    | .ok text => .ok text
    | .error fault => .error (.undecodable fault)

/-- Writes the file at a path, made if it is missing. -/
def writeFile (t : FileTree) (cwd : Place) (p : Path) (bytes : List UInt8) :
    Except Failure FileTree :=
  match t.locate cwd .writing p with
  | .error e => .error e
  | .ok place =>
    match t.node? place with
    | some .directory => .error (.system .isADirectory p.toString)
    | _ => .ok (t.insert place (.file bytes))

/-- Makes an empty file at a path, unless there is a file already. -/
def ensureFile (t : FileTree) (cwd : Place) (p : Path) : Except Failure FileTree :=
  match t.locate cwd .writing p with
  | .error e => .error e
  | .ok place =>
    match t.node? place with
    | none => .ok (t.insert place (.file []))
    | some .directory => .error (.system .isADirectory p.toString)
    | some _ => .ok t

/-- Makes an empty file at a path, unless there is a file already. A link in its place
is not followed but counts as one too many. -/
def ensureUnlinked (t : FileTree) (cwd : Place) (p : Path) : Except Failure FileTree :=
  match t.locate cwd .entry p with
  | .error e => .error e
  | .ok place =>
    match t.node? place with
    | none => .ok (t.insert place (.file []))
    | some (.file _) => .ok t
    | some .directory => .error (.system .isADirectory p.toString)
    | some (.link _) => .error (.system .tooManyLinks p.toString)

/-- Makes a file that must not be there yet, not even as a link. -/
def createFile (t : FileTree) (cwd : Place) (p : Path) : Except Failure FileTree :=
  match t.locate cwd .entry p with
  | .error e => .error e
  | .ok place =>
    match t.node? place with
    | none => .ok (t.insert place (.file []))
    | some _ => .error (.system .alreadyExists p.toString)

/-- Makes a directory whose parent is there. -/
def makeDirectory (t : FileTree) (cwd : Place) (p : Path) : Except Failure FileTree :=
  match t.locate cwd .entry p with
  | .error e => .error e
  | .ok place =>
    match t.node? place with
    | none => .ok (t.insert place .directory)
    | some _ => .error (.system .alreadyExists p.toString)

/-- The failure of an operation on two paths. -/
def pairFailure (first second : String) : Failure → Failure
  | .system cause _ => .systemPair cause first second
  | e => e

/-- Makes a link. A failure names the target as well. -/
def makeLink (t : FileTree) (cwd : Place) (p : Path) (target : String) : Except Failure FileTree :=
  if target.toList.contains '\x00' then .error .embeddedNul
  else if target = "" then .error (.systemPair .notFound target p.toString)
  else if longestPath < target.utf8ByteSize then
    .error (.systemPair .nameTooLong target p.toString)
  else
    match t.locate cwd .entry p with
    | .error e => .error (pairFailure target p.toString e)
    | .ok place =>
      match t.node? place with
      | none => .ok (t.insert place (.link target))
      | some _ => .error (.systemPair .alreadyExists target p.toString)

/-- Removes the file or link at a path. -/
def unlink (t : FileTree) (cwd : Place) (p : Path) : Except Failure FileTree :=
  match t.locate cwd .entry p with
  | .error e => .error e
  | .ok place =>
    match t.node? place with
    | none => .error (.system .notFound p.toString)
    | some .directory => .error (.system .isADirectory p.toString)
    | some _ => .ok (t.erase place)

/-- Removes what is at a path, with all that is below it. -/
def removeAll (t : FileTree) (cwd : Place) (p : Path) : Except Failure FileTree :=
  match t.locate cwd .entry p with
  | .error e => .error e
  | .ok place =>
    match t.node? place with
    | none => .error (.system .notFound p.toString)
    | some _ => .ok (t.eraseBelow place)

/-- Removes the file or link at a path, if there is one. -/
def unlinkIfPresent (t : FileTree) (cwd : Place) (p : Path) : Except Failure FileTree :=
  match t.unlink cwd p with
  | .ok t => .ok t
  | .error (.system .notFound _) => .ok t
  | .error e => .error e

/-- Moves the file at one path over another, in the place of a file or link that
is there. `source` is the first path as a failure names it. -/
def moveFile (t : FileTree) (cwd : Place) (p : Path) (source : String) (q : Path) :
    Except Failure FileTree :=
  -- A link at either end is moved or replaced itself, not what it points at.
  match t.locate cwd .entry p, t.locate cwd .entry q with
  | .error e, _ => .error (pairFailure source q.toString e)
  | .ok _, .error e => .error (pairFailure source q.toString e)
  | .ok from_, .ok to_ =>
    match t.node? from_, t.node? to_ with
    | none, _ => .error (.systemPair .notFound source q.toString)
    | some _, some .directory => .error (.systemPair .isADirectory source q.toString)
    | some node, _ => .ok ((t.erase from_).insert to_ node)

/-- Makes a directory and those above it that are missing; `depth` bounds how many
those can be. A directory that is there already will do. -/
def makeDirectories (depth : Nat) (t : FileTree) (cwd : Place) (p : Path) :
    Except Failure Unit × FileTree :=
  -- The directory itself is tried first, so that nothing above it is touched when
  -- it can be made or is there.
  match t.makeDirectory cwd p with
  | .ok t => (.ok (), t)
  | .error (.system .notFound path) =>
    match depth with
    | 0 => (.error (.system .notFound path), t)
    | depth + 1 =>
      match makeDirectories depth t cwd p.parent with
      | (.error e, t) => (.error e, t)
      | (.ok (), t) =>
        match t.makeDirectory cwd p with
        | .ok t => (.ok (), t)
        | .error e => (settle t e, t)
  | .error e => (settle t e, t)
where
  /-- A failure to make a directory is none if the directory is there. -/
  settle (t : FileTree) : Failure → Except Failure Unit
    | .system cause path =>
      match t.isDirectory? cwd p with
      | .ok true => .ok ()
      | .ok false => .error (.system cause path)
      | .error e => .error e
    | e => .error e

/-- Whether something is known to be at a path. -/
def isPresent (t : FileTree) (cwd : Place) (p : Path) : Bool :=
  match t.status cwd p with
  | .ok _ => true
  | .error _ => false

/-- Makes a directory in a directory that is there; one that is there already, links
followed, will do. -/
def addDirectory (t : FileTree) (cwd : Place) (p : Path) : Except Failure Unit × FileTree :=
  match t.makeDirectory cwd p with
  | .ok t => (.ok (), t)
  | .error e =>
    match t.status cwd p with
    | .ok .directory => (.ok (), t)
    | _ => (.error e, t)

/-- Makes the directories on a path that are missing, the first of them first; `depth`
bounds how many those can be. Something else in the place of one of them is left to
the next to fail on. -/
def fillDirectories : Nat → FileTree → Place → Path → Except Failure Unit × FileTree
  | 0, t, cwd, p => t.addDirectory cwd p
  | depth + 1, t, cwd, p =>
    if p.parts.isEmpty || t.isPresent cwd p.parent then t.addDirectory cwd p
    else
      match fillDirectories depth t cwd p.parent with
      | (.ok (), t) => t.addDirectory cwd p
      | (.error (.system .alreadyExists _), t) => t.addDirectory cwd p
      | (.error e, t) => (.error e, t)

end SourceDrift.FileTree
