/-
Descriptions of findings, in three forms.

The sanitized form has no location references and no carriage returns before line
ends; the summary is its first line; the report keeps the headline and the list
items of the description as it came.
-/
import SourceDrift.Finding.Basic
import SourceDrift.Finding.Reference

set_option autoImplicit false

namespace SourceDrift.Description

/-- The text with every carriage return before a line feed left out. -/
def joinLineEnds : List Char → List Char
  | [] => []
  | '\r' :: '\n' :: rest => '\n' :: joinLineEnds rest
  | c :: rest => c :: joinLineEnds rest

/-- The sanitized form of a description. -/
def sanitizeChars (cs : List Char) : List Char :=
  joinLineEnds (Reference.removeReferences cs)

/-- The sanitized form of a description. -/
def sanitize (description : String) : String :=
  String.ofList (sanitizeChars description.toList)

/-- A line without the colon that may end it. -/
def dropColon (line : List Char) : List Char :=
  if line.getLast? = some ':' then line.dropLast else line

/-- The first line of the sanitized description. A colon at its end is dropped,
and a mark is added if more lines follow. -/
def summary (description : String) : String :=
  match Text.splitOn '\n' (Text.trim Text.isBlank (sanitizeChars description.toList)) with
  | [] => ""
  | [line] => String.ofList (dropColon line)
  | line :: _ => String.ofList (dropColon line) ++ " [...]"

/-- The description in the characters that a report shows: a colon for each
number sign, and no tabs. -/
def reportChars (cs : List Char) : List Char :=
  (cs.filter (· != '\t')).map fun c => if c = '#' then ':' else c

/-- A line after the headline: a bullet for a list item, nothing for other lines. -/
def bullet? : List Char → Option String
  | '-' :: item => some (String.ofList ('\t' :: '•' :: item))
  | _ => none

/-- The lines of a report: the first line that is not blank is the headline, and
of the others the list items are kept as bullets. -/
def report (description : String) : List String :=
  let lines := (Text.splitOn '\n' (reportChars description.toList)).map (Text.trim Text.isBlank)
  match lines.filter (!·.isEmpty) with
  | [] => []
  | headline :: rest => String.ofList ('❌' :: ' ' :: headline) :: rest.filterMap bullet?

end SourceDrift.Description

namespace SourceDrift.Finding

/-- The summary of a finding. -/
def summary (f : Finding) : String := Description.summary f.description

/-- The report of a finding. -/
def report (f : Finding) : List String := Description.report f.description

end SourceDrift.Finding
