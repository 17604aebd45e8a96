/-
Settings of a workspace.

A document may leave any setting out and may hold keys that are no settings;
those are dropped. A setting that is given has to be valid, or the whole document
is refused.
-/
import SourceDrift.Json.Value
import SourceDrift.Validation

set_option autoImplicit false

namespace SourceDrift

open Checked

/-- Which ranges are shortened to their first line when a finding is shown. -/
inductive CollapsePolicy where
  | always
  | declarations
  deriving DecidableEq

namespace CollapsePolicy

/-- The word for a policy. -/
def word : CollapsePolicy → String
  | always => "always"
  | declarations => "declarations"

/-- The policy that a word names. -/
def ofWord? (s : String) : Option CollapsePolicy :=
  if s = "always" then some always
  else if s = "declarations" then some declarations
  else none

/-- Reads a policy. -/
def ofJson : Json → Checked CollapsePolicy
  | .str s =>
    match ofWord? s with
    | some policy => .ok policy
    | none => fail .unknownChoice
  | _ => fail .unknownChoice

end CollapsePolicy

/-- The settings of a workspace. -/
structure Config where
  /-- The compiler to hand to the analyser; empty lets the analyser choose. -/
  solcPath : String
  /-- Rules whose findings are left out of listings and diagnostics. -/
  hidden : List String
  collapse : CollapsePolicy
  /-- Seconds that an analysis may take. -/
  timeout : Int
  deriving DecidableEq

namespace Config

/-- The settings of a workspace that says nothing. -/
def default : Config :=
  ⟨"", [], .always, 600⟩

/-- A number of seconds above zero. -/
def seconds (v : Json) : Checked Int :=
  match integer v with
  | .error issues => .error issues
  | .ok n => if 0 < n then .ok n else fail .notPositive

/-- Reads settings, or names every fault of the document. -/
def ofJson : Json → Checked Config
  | .obj members =>
    (both (member text "solc_path" members)
      (both (member (list text) "hidden_detectors" members)
        (both (member CollapsePolicy.ofJson "collapse_policy" members)
          (member seconds "analyzer_timeout_s" members)))).map
      fun (solcPath, hidden, collapse, timeout) =>
        ⟨solcPath.getD default.solcPath, hidden.getD default.hidden,
          collapse.getD default.collapse, timeout.getD default.timeout⟩
  | _ => fail .notAnObject

/-- The document of the settings, every one of them written out. -/
def document (c : Config) : Json :=
  .obj [("solc_path", .str c.solcPath), ("hidden_detectors", .arr (c.hidden.map .str)),
    ("collapse_policy", .str c.collapse.word), ("analyzer_timeout_s", .int c.timeout)]

end Config
end SourceDrift
