/-
The commands that run the analyser.
-/
import SourceDrift.Cli.Script
import SourceDrift.Text.Lowercase
import SourceDrift.Workspace.Analysis

set_option autoImplicit false

namespace SourceDrift.Cli.Analyses

open Markup Script

/-! ## Analysing -/

/-- Prints the reports of findings, an empty line after each. -/
def printReports : List Finding → Script Unit
  | [] => .pure ()
  | f :: rest => do
    plainLines f.report
    blank
    printReports rest

/-- Analyses a workspace and prints what was found; answers whether it went well. -/
def analyzeOne (quiet : Bool) (root : Path) : Script Bool := do
  let config ← onHost (Settings.load root)
  let (outcome, store) ← onStore (Store.empty config.collapse) (Analysis.execute root)
  match outcome.result with
  | .error reason => do
    markup (styled Theme.errorHeadline s!"Error in workspace {root.toString}:" ++ " " ++
      escape reason)
    pure false
  | .ok _ => do
    if !quiet then
      let t ← get
      printReports (Store.visible root config.hidden ⟨store, t.host⟩)
    pure true

/-- Analyses workspaces one after the other and answers which went well. -/
def analyzeAll (quiet : Bool) : List Path → Script (List Bool)
  | [] => pure []
  | root :: rest => do
    let ok ← analyzeOne quiet root
    let oks ← analyzeAll quiet rest
    pure (ok :: oks)

/-- The line on several analyses. -/
def summaryLine (oks : List Bool) : String :=
  let failed := oks.count false
  "Analysis: " ++ styled Theme.success s!"{oks.count true} succeeded" ++ ", " ++
    styled (if failed = 0 then Theme.dim else Theme.error) s!"{failed} failed"

/-- The roots of the workspaces that are named. -/
def roots : List String → Script (List Path)
  | [] => pure []
  | name :: rest => do
    let root ← workspaceRoot (some name)
    let more ← roots rest
    pure (root :: more)

/-- Analyses workspaces, or the current directory if none are named. -/
def analyze (workspaces : List String) (quiet : Bool) : Script Unit := do
  let paths ← roots (if workspaces.isEmpty then ["."] else workspaces)
  if ← onHost (Analyzer.checkVersion Analyzer.minimumVersion) then
    markup (styled Theme.info "Starting slither analysis...")
    let oks ← analyzeAll quiet paths
    markup (summaryLine oks)
    if oks.contains false then exit 1
  else
    markup (styled Theme.errorHeadline "Slither is missing or too old." ++ " " ++
      styled Theme.dim "pip install slither-analyzer --upgrade")
    exit 1

/-! ## The catalogue of rules -/

/-- The row of a rule. -/
def detectorRow (d : Detector) : List String :=
  [d.check, styled (Theme.impact d.impact) d.impact, d.confidence, escape d.title]

/-- The rules with an impact, in whatever case it is given; all of them if none
is. -/
def withImpact (impact : Option String) (ds : List Detector) : List Detector :=
  match impact with
  | none => ds
  | some wanted =>
    if wanted = "" then ds
    else ds.filter fun d => Text.lowercase d.impact == Text.lowercase wanted

/-- Prints rules. -/
def printDetectors (ds : List Detector) : Script Unit :=
  if ds.isEmpty then markup (styled Theme.dim "No detectors found")
  else print (.table "Slither detectors" ["Check", "Impact", "Confidence", "Title"]
    (ds.map detectorRow))

/-- Whether a failure to list the rules is reported rather than passed on. -/
def isReported (e : Failure) : Bool :=
  e.isSystem || e.isRuntime || e.isValue

/-- Lists the rules of the analyser. -/
def detectors (impact : Option String) : Script Unit := do
  match ← onHost (Action.catching isReported Analyzer.detectors) with
  | .ok ds => printDetectors (withImpact impact ds)
  | .error e => do
    markup (styled Theme.errorHeadline "Cannot list detectors:" ++ " " ++ escape e.message)
    exit 1

end SourceDrift.Cli.Analyses
