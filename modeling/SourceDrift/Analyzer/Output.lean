/-
The document that an analysis leaves behind.

Findings stand in a bare list or inside an envelope, under `results.detectors`.
An envelope may say that the analysis failed, and then carries the reason. A
value that counts as empty stands for an absent one in both places.
-/
import SourceDrift.Json.Shown

set_option autoImplicit false

namespace SourceDrift.Analyzer

/-- Why a document holds no findings. -/
inductive ShapeError where
  | resultsNotAnObject
  | detectorsNotAList
  | otherDocument (kind : String)
  deriving DecidableEq

namespace ShapeError

/-- The words for an error. -/
def message : ShapeError → String
  | resultsNotAnObject => "'results' is not an object"
  | detectorsNotAList => "'results.detectors' is not an array"
  | otherDocument kind => "unexpected document type: " ++ kind

end ShapeError

/-- The name of a value's kind in messages. -/
def kindName : Json → String
  | .null => "NoneType"
  | .bool _ => "bool"
  | .int _ => "int"
  | .float _ => "float"
  | .str _ => "str"
  | .arr _ => "list"
  | .obj _ => "dict"

/-- The value of a key, unless it is absent or counts as empty. -/
def truthyField? (key : String) (members : List Json.Member) : Option Json :=
  (Json.lookup key members).filter Json.isTruthy

/-- The findings of an envelope's results. -/
def detectorItems (results : List Json.Member) : Except ShapeError (List Json) :=
  match truthyField? "detectors" results with
  | none => .ok []
  | some (.arr items) => .ok items
  | some _ => .error .detectorsNotAList

/-- **The findings of a document**, whichever of the two shapes it has. -/
def findingItems : Json → Except ShapeError (List Json)
  | .arr items => .ok items
  | .obj members =>
    match truthyField? "results" members with
    | none => .ok []
    | some (.obj results) => detectorItems results
    | some _ => .error .resultsNotAnObject
  | v => .error (.otherDocument (kindName v))

/-- The reason that an envelope gives for a failed analysis. -/
def declaredFailure : Json → Option String
  | .obj members =>
    match Json.lookup "success" members with
    | some (.bool false) =>
      match truthyField? "error" members with
      | some reason => some reason.shown
      | none => some "analyzer reported failure"
    | _ => none
  | _ => none

end SourceDrift.Analyzer
