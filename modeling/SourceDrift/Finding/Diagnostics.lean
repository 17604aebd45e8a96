/-
Findings as diagnostics of the files they are in.

A finding that is known to be out of date, whose rule is hidden or that points at
no file has no diagnostic. Every other finding has one, in the file of its first
mapping. Files come in the order in which they are first met, and the diagnostics
of a file in the order of the findings.
-/
import SourceDrift.Finding.Description
import SourceDrift.Finding.Range
import SourceDrift.Path

set_option autoImplicit false

namespace SourceDrift

/-- How much attention a diagnostic asks for. -/
inductive Severity where
  | error
  | warning
  | information
  deriving DecidableEq

namespace Severity

/-- The word for a severity. -/
def word : Severity → String
  | error => "error"
  | warning => "warning"
  | information => "information"

/-- The severity of a finding with this impact. -/
def ofImpact (impact : String) : Severity :=
  if impact = "High" then error
  else if impact = "Medium" ∨ impact = "Low" then warning
  else information

end Severity

/-- What an editor shows of a finding in a file. -/
structure Diagnostic where
  path : Path
  range : TextRange
  message : String
  severity : Severity
  check : String
  deriving DecidableEq

namespace Diagnostic

/-- The diagnostic of a finding, if it has one. -/
def ofFinding? (root : Path) (hidden : List String) (f : Finding) : Option Diagnostic :=
  if f.sync = .outOfSync ∨ hidden.contains f.check then none
  else
    match f.mapped with
    | [] => none
    | (index, m) :: _ =>
      some ⟨root.join (Path.ofString m.name), f.fullRange index, Text.strip f.description,
        .ofImpact f.impact, f.check⟩

/-- The groups with one more diagnostic: at the end of its file's group, or in a
new group after the others. -/
def insert (d : Diagnostic) : List (Path × List Diagnostic) → List (Path × List Diagnostic)
  | [] => [(d.path, [d])]
  | (path, ds) :: rest =>
    if path = d.path then (path, ds ++ [d]) :: rest else (path, ds) :: insert d rest

/-- **The diagnostics of findings**, grouped by file. -/
def byFile (root : Path) (hidden : List String) (fs : List Finding) :
    List (Path × List Diagnostic) :=
  (fs.filterMap (ofFinding? root hidden)).foldl (fun groups d => insert d groups) []

end Diagnostic
end SourceDrift
