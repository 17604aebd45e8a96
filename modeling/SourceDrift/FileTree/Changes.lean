/-
What to do to one tree to get another.

What is gone or is no longer of the same kind is removed first, the deepest places
before those above them; then what is new or different is made, a directory before
what is in it.
-/
import SourceDrift.FileTree.Basic

set_option autoImplicit false

namespace SourceDrift

/-- A single change at a place. -/
inductive Change where
  | remove (place : Place) (node : Node)
  | make (place : Place) (node : Node)

namespace FileTree

/-- Whether a node can take another's place by writing over it. -/
def writesOver (new old : Node) : Bool :=
  match new, old with
  | .file _, .file _ => true
  | _, _ => false

/-- Entries by the length of their places, the shortest first. -/
def shallowFirst (entries : List (Place × Node)) : List (Place × Node) :=
  entries.mergeSort fun a b => decide (a.1.length ≤ b.1.length)

/-- The entries that another tree does not have. -/
def entriesBeside (t other : FileTree) : List (Place × Node) :=
  t.entries.filter fun e => other.node? e.1 != some e.2

/-- **The changes that lead from a tree to another.** -/
def changesTo (t new : FileTree) : List Change :=
  let gone := (t.entriesBeside new).filter fun e =>
    !((new.node? e.1).any fun node => writesOver node e.2)
  ((shallowFirst gone).reverse.map fun e => .remove e.1 e.2) ++
    (shallowFirst (new.entriesBeside t)).map fun e => .make e.1 e.2

end FileTree
end SourceDrift
