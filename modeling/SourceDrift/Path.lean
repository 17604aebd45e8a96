/-
Paths as text names them.

A path is its leading slashes and its parts. Writing a path collapses repeated
slashes and single dots; double dots stay, because what they lead to depends on
the links on the way. Exactly two leading slashes are kept apart from one.

`key` is the comparable form: made absolute, and its double dots resolved in the
text alone.
-/
import SourceDrift.Text.Blank

set_option autoImplicit false

namespace SourceDrift

/-- A path: where it starts and its parts, none of them empty or a single dot. -/
structure Path where
  /-- Leading slashes: `""` for a relative path, `"/"` or `"//"` for an absolute one. -/
  anchor : String
  parts : List String
  deriving DecidableEq

namespace Path

/-- The leading slashes that a path keeps: two of exactly two, one of any other
number above zero. -/
def anchorOf (cs : List Char) : String :=
  match (cs.takeWhile (· == '/')).length with
  | 0 => ""
  | 2 => "//"
  | _ => "/"

/-- The parts of a path's text. -/
def partsOf (cs : List Char) : List String :=
  ((Text.splitOn '/' cs).filter fun part => part != [] && part != ['.']).map String.ofList

/-- The path that a text names. -/
def ofString (s : String) : Path :=
  ⟨anchorOf s.toList, partsOf s.toList⟩

/-- The text of a path; a dot for the path without parts. -/
def toString (p : Path) : String :=
  if p.anchor = "" ∧ p.parts = [] then "." else p.anchor ++ "/".intercalate p.parts

/-- Whether a path starts at the root. -/
def isAbsolute (p : Path) : Bool := p.anchor != ""

/-- A path seen from another; an absolute path is seen as itself. -/
def join (p q : Path) : Path :=
  if q.isAbsolute then q else ⟨p.anchor, p.parts ++ q.parts⟩

/-- A part below a path. -/
def child (p : Path) (name : String) : Path :=
  ⟨p.anchor, p.parts ++ [name]⟩

/-- The path without its last part. -/
def parent (p : Path) : Path :=
  ⟨p.anchor, p.parts.dropLast⟩

/-- The last part; empty if there are none. -/
def name (p : Path) : String :=
  p.parts.getLastD ""

/-- Whether a path holds a character that no file system takes. -/
def hasNul (p : Path) : Bool :=
  p.parts.any fun part => part.toList.contains '\x00'

/-! ## The comparable form -/

/-- The parts with each double dot taken back together with the part before it;
at the root it leads nowhere. `above` holds the parts so far, last first. -/
def resolveDots (above : List String) : List String → List String
  | [] => above.reverse
  | part :: rest =>
    -- `tail` of nothing is nothing: above the root is the root.
    if part = ".." then resolveDots above.tail rest else resolveDots (part :: above) rest

/-- The path from the root, seen from a directory, its double dots resolved in
the text. -/
def normalize (cwd : List String) (p : Path) : Path :=
  let absolute := Path.join ⟨"/", cwd⟩ p
  ⟨absolute.anchor, resolveDots [] absolute.parts⟩

/-- **The comparable form of a path**, by which a workspace or a file is one
however it is spelled. -/
def key (cwd : List String) (p : Path) : String :=
  (p.normalize cwd).toString

/-! ## Order -/

/-- The parts by which paths are put in order, the leading slashes first. -/
def orderKey (p : Path) : List String :=
  if p.anchor = "" then p.parts else p.anchor :: p.parts

/-- Whether parts come no later than others: part by part, by code points. -/
def partsLe : List String → List String → Bool
  | [], _ => true
  | _ :: _, [] => false
  | a :: as, b :: bs => if a = b then partsLe as bs else decide (a ≤ b)

/-- Whether a path comes no later than another. -/
def le (p q : Path) : Bool :=
  partsLe p.orderKey q.orderKey

end Path

namespace Storage

/-! ## Files of a workspace -/

/-- The directory in which a workspace's files are kept. -/
def directory (root : Path) : Path := root.child ".slither"

/-- The stored findings. -/
def results (root : Path) : Path := (directory root).child "analysis-results.json"

/-- What the analyser writes. -/
def output (root : Path) : Path := (directory root).child "analyzer-output.json"

/-- The settings. -/
def config (root : Path) : Path := (directory root).child "config.json"

/-- The file that is locked while the findings are read or written. -/
def lock (root : Path) : Path := (directory root).child ".lock"

end Storage
end SourceDrift
