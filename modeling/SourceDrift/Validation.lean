/-
Checking a value against a model, with every fault named.

A check answers either what the value denotes or all the faults that were found,
each with the path to the value at fault. Checks of independent parts are joined
by `both`, which keeps the faults of both sides in order, so that the faults of a
record come in the order of its fields whatever the order of the text.
-/
import SourceDrift.Json.Value
import SourceDrift.Text.IntegerText

set_option autoImplicit false

namespace SourceDrift

/-- A step of a path into a value. -/
inductive Step where
  | key (name : String)
  | index (i : Nat)
  deriving DecidableEq

/-- What is wrong with a value. -/
inductive Fault where
  | notAnObject
  | notText
  | notAList
  | notADictionary
  | notAnInteger
  | unreadableInteger
  | oversizedInteger
  | fractionalNumber
  | infiniteNumber
  | unknownChoice
  | notPositive
  | missing
  deriving DecidableEq

/-- A fault and where it stands. -/
structure Issue where
  path : List Step
  fault : Fault
  deriving DecidableEq

/-- What a check answers. -/
abbrev Checked (α : Type) := Except (List Issue) α

namespace Checked

variable {α β : Type}

/-- One fault, at the value itself. -/
def fail (fault : Fault) : Checked α :=
  .error [⟨[], fault⟩]

/-- The same answer, its faults seen from one step further out. -/
def under (step : Step) : Checked α → Checked α
  | .ok a => .ok a
  | .error issues => .error (issues.map fun i => { i with path := step :: i.path })

/-- Two independent checks: both results, or the faults of both in order. -/
def both : Checked α → Checked β → Checked (α × β)
  | .ok a, .ok b => .ok (a, b)
  | .ok _, .error issues => .error issues
  | .error issues, .ok _ => .error issues
  | .error issues, .error more => .error (issues ++ more)

/-- The checks of a list's items, from the item with index `i` on. -/
def items (check : Json → Checked α) (i : Nat) : List Json → Checked (List α)
  | [] => .ok []
  | v :: rest =>
    (both (under (.index i) (check v)) (items check (i + 1) rest)).map fun (a, as) => a :: as

/-- A list each of whose items passes. -/
def list (check : Json → Checked α) : Json → Checked (List α)
  | .arr vs => items check 0 vs
  | _ => fail .notAList

/-- Text. No other value is taken for text. -/
def text : Json → Checked String
  | .str s => .ok s
  | _ => fail .notText

/-- A value or `null`. -/
def nullable (check : Json → Checked α) : Json → Checked (Option α)
  | .null => .ok none
  | v => (check v).map some

/-- An object with any members. -/
def dictionary : Json → Checked (List Json.Member)
  | .obj members => .ok members
  | _ => fail .notADictionary

/-! ## Integers -/

/-- The integer that a text denotes. -/
def integerOfText (s : String) : Checked Int :=
  match IntegerText.read s with
  | .ok n => .ok n
  | .error .malformed => fail .unreadableInteger
  | .error .oversized => fail .oversizedInteger

/-- The integer that a double denotes, if it is whole and fits 64 bits with some
room. -/
def integerOfFloat (x : Binary64) : Checked Int :=
  if !x.isFinite then fail .infiniteNumber
  else
    match x.toInt? with
    | none => fail .fractionalNumber
    | some n => if n.natAbs < twoTo 63 then .ok n else fail .oversizedInteger

/-- An integer, or a value that denotes one. -/
def integer : Json → Checked Int
  | .int n => .ok n
  | .bool b => .ok (if b then 1 else 0)
  | .float x => integerOfFloat x
  | .str s => integerOfText s
  | _ => fail .notAnInteger

/-! ## Members -/

/-- The key under which a field stands: its document name where that is present,
its model name otherwise. -/
def keyOf (members : List Json.Member) (documentName modelName : String) : String :=
  if (Json.lookup documentName members).isSome then documentName else modelName

/-- The value of a key, checked; nothing if the key is absent. -/
def member (check : Json → Checked α) (key : String) (members : List Json.Member) :
    Checked (Option α) :=
  match Json.lookup key members with
  | none => .ok none
  | some v => (under (.key key) (check v)).map some

end Checked
end SourceDrift
