/-
A file system as data.

A tree lists the places that exist, each with what is there; the root always
exists and is not listed. A place is the list of names on the way from the root,
with no links and no dots left in it. Directories are listed like files, so that
an empty one exists too.
-/

set_option autoImplicit false

namespace SourceDrift

/-- The names on the way from the root to a place. -/
abbrev Place := List String

/-- What is at a place. -/
inductive Node where
  | file (bytes : List UInt8)
  | directory
  | link (target : String)
  deriving DecidableEq

/-- The places that exist, the root aside. -/
structure FileTree where
  entries : List (Place × Node)

namespace FileTree

/-- The tree with nothing in it but the root. -/
def empty : FileTree := ⟨[]⟩

/-- What is listed for a place. -/
def lookup (place : Place) : List (Place × Node) → Option Node
  | [] => none
  | (p, node) :: rest => if p = place then some node else lookup place rest

/-- What is at a place. -/
def node? (t : FileTree) (place : Place) : Option Node :=
  if place = [] then some .directory else lookup place t.entries

/-- The tree without what is at a place. -/
def erase (t : FileTree) (place : Place) : FileTree :=
  ⟨t.entries.filter fun e => e.1 != place⟩

/-- The tree with a node at a place, in the place of what was there. -/
def insert (t : FileTree) (place : Place) (node : Node) : FileTree :=
  ⟨(place, node) :: (t.erase place).entries⟩

/-- The tree without a place and all below it. -/
def eraseBelow (t : FileTree) (place : Place) : FileTree :=
  ⟨t.entries.filter fun e => !place.isPrefixOf e.1⟩

/-- The entries below a place, seen from it. -/
def below (t : FileTree) (place : Place) : List (Place × Node) :=
  t.entries.filterMap fun e =>
    if place.isPrefixOf e.1 && e.1 != place then some (e.1.drop place.length, e.2) else none

/-! ## One equation for each operation -/

theorem lookup_filter_ne (entries : List (Place × Node)) (p q : Place) :
    lookup q (entries.filter fun e => e.1 != p) = if q = p then none else lookup q entries := by
  induction entries with
  | nil => simp [lookup]
  | cons e rest ih =>
    obtain ⟨r, node⟩ := e
    by_cases hr : r = p
    · subst hr
      by_cases hq : q = r
      · subst hq; simp [ih]
      · simp [ih, hq, lookup, Ne.symm hq]
    · by_cases hq : r = q
      · subst hq; simp [hr, lookup]
      · simp [hr, lookup, hq, ih]

@[simp] theorem node?_root (t : FileTree) : t.node? [] = some .directory := rfl

theorem node?_erase (t : FileTree) (p q : Place) (hq : q ≠ []) :
    (t.erase p).node? q = if q = p then none else t.node? q := by
  simp [node?, erase, hq, lookup_filter_ne]

theorem node?_insert (t : FileTree) (p q : Place) (node : Node) (hq : q ≠ []) :
    (t.insert p node).node? q = if q = p then some node else t.node? q := by
  by_cases h : q = p
  · subst h; simp [node?, insert, hq, lookup]
  · simp [node?, insert, erase, hq, lookup, lookup_filter_ne, h, Ne.symm h]

end FileTree
end SourceDrift
