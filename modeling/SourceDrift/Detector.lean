/-
Entries of the analyser's catalogue of rules.

Only the rule's name has to be given. An entry is shown with every field, given or
not, and then the keys that the model does not know.
-/
import SourceDrift.Json.Value
import SourceDrift.Validation

set_option autoImplicit false

namespace SourceDrift

open Checked

/-- A rule of the analyser. -/
structure Detector where
  index : Int
  check : String
  title : String
  impact : String
  confidence : String
  wikiUrl : String
  description : String
  exploitScenario : String
  recommendation : String
  extras : List Json.Member

namespace Detector

/-- The keys of an entry that are fields. -/
def fieldKeys : List String :=
  ["index", "check", "title", "impact", "confidence", "wiki_url", "description",
    "exploit_scenario", "recommendation"]

/-- A text field that counts as empty when it is absent. -/
def textField (key : String) (members : List Json.Member) : Checked String :=
  (member text key members).map (·.getD "")

/-- The rule's name, which must be given. -/
def checkField (members : List Json.Member) : Checked String :=
  match Json.lookup "check" members with
  | none => under (.key "check") (fail .missing)
  | some v => under (.key "check") (text v)

/-- Reads an entry, or names every fault of it. -/
def ofJson : Json → Checked Detector
  | .obj members =>
    (both ((member integer "index" members).map (·.getD 0))
      (both (checkField members)
        (both (textField "title" members)
          (both (textField "impact" members)
            (both (textField "confidence" members)
              (both (textField "wiki_url" members)
                (both (textField "description" members)
                  (both (textField "exploit_scenario" members)
                    (textField "recommendation" members))))))))).map
      fun (index, check, title, impact, confidence, wikiUrl, description, exploitScenario,
          recommendation) =>
        ⟨index, check, title, impact, confidence, wikiUrl, description, exploitScenario,
          recommendation, Json.without fieldKeys members⟩
  | _ => fail .notAnObject

/-- The document of an entry. -/
def document (d : Detector) : Json :=
  .obj ([("index", .int d.index), ("check", .str d.check), ("title", .str d.title),
      ("impact", .str d.impact), ("confidence", .str d.confidence), ("wiki_url", .str d.wikiUrl),
      ("description", .str d.description), ("exploit_scenario", .str d.exploitScenario),
      ("recommendation", .str d.recommendation)] ++ Json.dropNonFiniteMembers d.extras)

end Detector
end SourceDrift
