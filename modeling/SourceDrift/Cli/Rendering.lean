/-
What is printed, as plain lines.

Styles are left out and escaped tags become the text that they stand for. The
columns of a table are as wide as their widest cell.
-/
import SourceDrift.Cli.Output

set_option autoImplicit false

namespace SourceDrift.Cli

namespace Markup

/-- The text that markup stands for. `inTag` holds inside a tag, and `slashes`
counts the backslashes that have been read and not yet written: an odd number of
them makes the tag behind them text. -/
def plainFrom (inTag : Bool) (slashes : Nat) : List Char → List Char
  | [] => List.replicate slashes '\\'
  | c :: rest =>
    if inTag then plainFrom (c != ']') 0 rest
    else if c = '\\' then plainFrom false (slashes + 1) rest
    else if c = '[' ∧ opensTag rest then
      List.replicate (slashes / 2) '\\' ++
        if slashes % 2 = 1 then c :: plainFrom false 0 rest else plainFrom true 0 rest
    else List.replicate slashes '\\' ++ c :: plainFrom false 0 rest

/-- **The text that markup stands for.** -/
def plain (s : String) : String := String.ofList (plainFrom false 0 s.toList)

end Markup

namespace Printed

/-- A cell with blanks behind it up to a width. -/
def padded (width : Nat) (cell : String) : String :=
  cell ++ String.ofList (List.replicate (width - cell.length) ' ')

/-- The widths of columns, each that of its widest cell. -/
def widths (columns : List String) (rows : List (List String)) : List Nat :=
  rows.foldl (fun ws row => List.zipWith (fun w cell => max w cell.length) ws row)
    (columns.map String.length)

/-- A row of a table. -/
def rowLine (ws : List Nat) (row : List String) : String :=
  "  ".intercalate (List.zipWith padded ws row)

/-- The lines of what is printed. -/
def lines : Printed → List String
  | .markup text => [Markup.plain text]
  | .plain text => [text]
  | .blank => [""]
  | .table title columns rows =>
    let cells := rows.map fun row => row.map Markup.plain
    let ws := widths columns cells
    title :: rowLine ws columns :: cells.map (rowLine ws)

end Printed

/-- The line on how the program is called. -/
def usage : String :=
  "usage: source-drift [--verbose] [--log-file PATH] analyze|detectors|findings ..."

end SourceDrift.Cli
