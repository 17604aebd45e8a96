/-
Where an editor shows a finding.

A source mapping counts lines and columns from 1 and an editor counts from 0. The
display policy may shorten a range of several lines to its first line, so that
opening a finding leads to the start of what is flagged and does not select all
of it.
-/
import SourceDrift.Config
import SourceDrift.Finding.Basic

set_option autoImplicit false

namespace SourceDrift

/-- A range of an editor, counted from 0, its end column not included. -/
structure TextRange where
  startLine : Int
  startColumn : Int
  endLine : Int
  endColumn : Int
  deriving DecidableEq

namespace TextRange

/-- The range that stands for no range. -/
def empty : TextRange := ⟨0, 0, 0, 0⟩

/-- Whether a range stands for none. -/
def isEmpty (r : TextRange) : Bool := r == empty

/-- A count from 1 as a count from 0; what lies before 1 counts as 1. -/
def zeroBased (n : Int) : Int := max (n - 1) 0

/-- The whole range of a mapping, if it has lines. -/
def ofMapping? (m : SourceMapping) : Option TextRange :=
  match m.lines with
  | [] => none
  | first :: rest =>
    some ⟨zeroBased first, zeroBased m.startColumn, zeroBased (rest.getLastD first),
      zeroBased m.endColumn⟩

/-- The range shortened to its first line, if it has several. -/
def firstLine (r : TextRange) : TextRange :=
  -- The end is the start of the next line, which takes in all of the first.
  if r.endLine = r.startLine then r else { r with endLine := r.startLine + 1, endColumn := 0 }

end TextRange

namespace CollapsePolicy

/-- Whether a policy shortens the ranges of an element. -/
def collapses (policy : CollapsePolicy) (e : Element) : Bool :=
  match policy with
  | always => true
  | declarations => e.kind == "contract" || e.kind == "function"

end CollapsePolicy

namespace Finding

/-- The whole range of an element; the empty range if there is no such element or
it has no lines. -/
def fullRange (f : Finding) (index : Int) : TextRange :=
  match (f.element? index).bind Element.sourceMapping with
  | none => .empty
  | some m => (TextRange.ofMapping? m).getD .empty

/-- The range of an element as a policy shows it. -/
def displayRange (policy : CollapsePolicy) (f : Finding) (index : Int) : TextRange :=
  match f.element? index with
  | none => .empty
  | some e => if policy.collapses e then (f.fullRange index).firstLine else f.fullRange index

end Finding
end SourceDrift
