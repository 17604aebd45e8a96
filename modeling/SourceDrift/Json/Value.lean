/-
JSON values as data.

Integers and floating numbers are different values even where they are equal as
numbers, because a document keeps the spelling `1.0` apart from `1` all the way
through. An object is the list of its members in the order of the text, each key
once; `set` keeps that shape, a later value taking the place of an earlier one.
-/
import SourceDrift.Binary64

set_option autoImplicit false

namespace SourceDrift

/-- A JSON value. -/
inductive Json where
  | null
  | bool (value : Bool)
  | int (value : Int)
  | float (value : Binary64)
  | str (value : String)
  | arr (items : List Json)
  | obj (members : List (String × Json))

namespace Json

/-- A key with its value. -/
abbrev Member := String × Json

/-! ## Members of an object -/

/-- The value of a key. -/
def lookup (key : String) : List Member → Option Json
  | [] => none
  | (k, v) :: rest => if k = key then some v else lookup key rest

/-- Gives `key` the value: in its place if the key is there, at the end if not. -/
def set (key : String) (value : Json) : List Member → List Member
  | [] => [(key, value)]
  | (k, v) :: rest => if k = key then (k, value) :: rest else (k, v) :: set key value rest

/-- The members whose key is none of `keys`. -/
def without (keys : List String) (members : List Member) : List Member :=
  members.filter fun m => !keys.contains m.1

/-- The value of a key of an object; nothing for other values. -/
def field? (key : String) : Json → Option Json
  | .obj members => lookup key members
  | _ => none

/-! ## Classes of values -/

/-- Whether a value counts as given where emptiness counts as absence: `null`,
`false`, zeros and empty text, lists and objects do not. -/
def isTruthy : Json → Bool
  | .null => false
  | .bool b => b
  | .int n => n != 0
  | .float x => !x.isZero
  | .str s => s != ""
  | .arr items => !items.isEmpty
  | .obj members => !members.isEmpty

/-! ## Every level at once -/

mutual
/-- The value with the members of every object in the code-point order of their
keys. -/
def sortKeys : Json → Json
  | .arr items => .arr (sortItems items)
  | .obj members => .obj ((sortMembers members).mergeSort fun a b => decide (a.1 ≤ b.1))
  | v => v

/-- Sorts the keys inside each item. -/
def sortItems : List Json → List Json
  | [] => []
  | v :: rest => sortKeys v :: sortItems rest

/-- Sorts the keys inside each member's value; the members themselves stay in
place. -/
def sortMembers : List Member → List Member
  | [] => []
  | (k, v) :: rest => (k, sortKeys v) :: sortMembers rest
end

mutual
/-- The value with every infinite number and every not-a-number turned into
`null`, since a document can hold neither. -/
def dropNonFinite : Json → Json
  | .float x => if x.isFinite then .float x else .null
  | .arr items => .arr (dropNonFiniteItems items)
  | .obj members => .obj (dropNonFiniteMembers members)
  | v => v

/-- Drops the non-finite numbers inside each item. -/
def dropNonFiniteItems : List Json → List Json
  | [] => []
  | v :: rest => dropNonFinite v :: dropNonFiniteItems rest

/-- Drops the non-finite numbers inside each member's value. -/
def dropNonFiniteMembers : List Member → List Member
  | [] => []
  | (k, v) :: rest => (k, dropNonFinite v) :: dropNonFiniteMembers rest
end

mutual
/-- **How deep a value goes**: one level for the value itself, and below it as many as
the deepest of its items or members has. -/
def levels : Json → Nat
  | .arr items => itemLevels items + 1
  | .obj members => memberLevels members + 1
  | _ => 1

/-- The levels of the deepest item. -/
def itemLevels : List Json → Nat
  | [] => 0
  | v :: rest => max (levels v) (itemLevels rest)

/-- The levels of the deepest member's value. -/
def memberLevels : List Member → Nat
  | [] => 0
  | (_, v) :: rest => max (levels v) (memberLevels rest)
end

end Json
end SourceDrift
