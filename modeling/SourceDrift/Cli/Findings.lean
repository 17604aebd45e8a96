/-
The commands on stored findings.

Findings are numbered from 1 in the order in which they are stored, whether or not
their rules are hidden. A listing leaves hidden ones out but not their numbers, so
a number that is shown is the number to ask for.
-/
import SourceDrift.Cli.Script

set_option autoImplicit false

namespace SourceDrift.Cli.Findings

open Markup Script

/-! ## Numbers -/

/-- The findings of a listing, each with its number. -/
def numbered (hidden : List String) (fs : List Finding) : List (Nat × Finding) :=
  ((fs.zipIdx 1).filter fun (f, _) => !hidden.contains f.check).map fun (f, n) => (n, f)

/-- The finding with a number. -/
def numbered? (fs : List Finding) (n : Int) : Option Finding :=
  if 1 ≤ n ∧ n ≤ fs.length then fs[(n - 1).toNat]? else none

/-- The finding with a number, or the end of the command. -/
def pick (fs : List Finding) (n : Int) : Script Finding :=
  match numbered? fs n with
  | some f => pure f
  | none => do
    markup (styled Theme.error s!"No finding #{n} ({fs.length} stored)")
    exit 1

/-! ## Listing -/

/-- The style of a sync state. -/
def syncStyle : SyncState → String
  | .inSync => Theme.success
  | .outOfSync => Theme.outOfSync
  | .unknown => Theme.dim

/-- The row of a finding. -/
def row (entry : Nat × Finding) : List String :=
  let (n, f) := entry
  [toString n, styled (Theme.impact f.impact) f.impact, f.confidence, f.check, f.location,
    styled (syncStyle f.sync) f.sync.label, escape f.summary]

/-- The columns of a listing. -/
def columns : List String :=
  ["#", "Impact", "Confidence", "Check", "Location", "Source", "Summary"]

/-- The rows of a listing, hidden findings left out unless all are asked for. -/
def rows (hidden : List String) (all : Bool) (fs : List Finding) : List (List String) :=
  (numbered (if all then [] else hidden) fs).map row

/-- Lists the findings of a workspace. -/
def list (workspace : Option String) (all : Bool) : Script Unit := do
  let o ← openWorkspace workspace
  if o.findings.isEmpty then
    markup (styled Theme.dim s!"No findings stored for {o.root.toString}")
  else
    print (.table s!"Findings in {o.root.name}" columns (rows o.config.hidden all o.findings))

/-! ## Showing one finding -/

/-- Where an element is. -/
def elementPlace (f : Finding) (index : Nat) (e : Element) : String :=
  match e.mapping with
  | none => "-"
  | some m =>
    let r := f.fullRange index
    s!"{m.name}:{r.startLine + 1}:{r.startColumn + 1}"

/-- The lines on an element. -/
def elementLines (f : Finding) (index : Nat) (e : Element) : List String :=
  let parent := match f.parentIndex index with
    | some i => s!" (in #{i})"
    | none => ""
  ["  " ++ styled Theme.info (toString index) ++ s!" {e.kind} {escape e.name}{parent}",
    "    " ++ styled Theme.dim (elementPlace f index e)]

/-- Prints lines with styles in them. -/
def markupLines : List String → Script Unit
  | [] => .pure ()
  | line :: rest => do
    markup line
    markupLines rest

/-- Shows a finding with its elements. -/
def show_ (n : Int) (workspace : Option String) : Script Unit := do
  let o ← openWorkspace workspace
  let f ← pick o.findings n
  plainLines f.report
  markup (styled Theme.dim
    s!"{f.check} | impact {f.impact} | confidence {f.confidence} | {f.sync.label}")
  markupLines (f.elements.zipIdx.flatMap fun (e, i) => elementLines f i e)

/-! ## Validating -/

/-- The line on a validation. -/
def reportLine (r : Sync.Report) : String :=
  s!"Checked {r.checked} findings: " ++ styled Theme.success s!"{r.inSync} in sync" ++ ", " ++
    styled (if r.outOfSync = 0 then Theme.dim else Theme.outOfSync) s!"{r.outOfSync} modified" ++
    if r.skipped = 0 then "" else " " ++ styled Theme.dim s!"({r.skipped} skipped)"

/-- Validates the findings of a workspace. -/
def validate (workspace changed : Option String) : Script Unit := do
  let o ← openWorkspace workspace
  let (report, _) ← onStore o.store (Store.validate o.root (changed.map Path.ofString))
  markup (reportLine report)

/-! ## Opening -/

/-- The line that tells an editor where to go. -/
def targetLine (t : Target) : Except Failure String :=
  let r := t.range
  -- A range can end one line after the greatest that a document can name.
  if [r.startLine, r.startColumn, r.endLine, r.endColumn].all fun n =>
      Numeral.isShowable (n + 1) then
    .ok (s!"{t.path.toString}:{r.startLine + 1}:{r.startColumn + 1}-" ++
      s!"{r.endLine + 1}:{r.endColumn + 1}")
  else .error .unshowable

/-- Tells where to open a finding. -/
def goto (n element : Int) (workspace : Option String) : Script Unit := do
  let o ← openWorkspace workspace
  let f ← pick o.findings n
  match f.target? o.config.collapse o.root element with
  | some t => do
    let line ← onHost (Action.ofExcept (targetLine t))
    plain line
  | none => do
    markup (styled Theme.error s!"Cannot navigate to finding #{n}")
    exit 1

/-! ## Diagnostics -/

/-- The line on a diagnostic. -/
def diagnosticLine (d : Diagnostic) : String :=
  let word := d.severity.word
  s!"  {d.range.startLine + 1}:{d.range.startColumn + 1} " ++ styled (Theme.severity word) word ++
    " " ++ d.check

/-- The lines on the diagnostics of a file. -/
def fileLines (group : Path × List Diagnostic) : List String :=
  styled "bold" group.1.toString :: group.2.map diagnosticLine

/-- Prints the diagnostics of a workspace, file by file in the order of their
paths. -/
def diagnostics (workspace : Option String) : Script Unit := do
  let o ← openWorkspace workspace
  match Diagnostic.byFile o.root o.config.hidden o.findings with
  | [] => markup (styled Theme.dim "No diagnostics")
  | groups => markupLines ((groups.mergeSort fun a b => a.1.le b.1).flatMap fileLines)

/-! ## Clearing -/

/-- Deletes the findings of a workspace. -/
def clear (workspace : Option String) : Script Unit := do
  let o ← openWorkspace workspace
  let _ ← onStore o.store (Store.clear o.root)
  markup (styled Theme.success s!"Cleared findings for {o.root.toString}")

end SourceDrift.Cli.Findings
