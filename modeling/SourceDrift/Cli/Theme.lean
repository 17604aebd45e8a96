/-
Styles of the command line's output, by their names in markup.
-/
set_option autoImplicit false

namespace SourceDrift.Cli.Theme

/-- What went well. -/
def success : String := "green"

/-- What went wrong. -/
def error : String := "red"

/-- What went wrong, as a headline. -/
def errorHeadline : String := "bold red"

/-- What is under way, and numbers of entries. -/
def info : String := "cyan"

/-- What is beside the point. -/
def dim : String := "grey62"

/-- Findings whose sources have changed. -/
def outOfSync : String := "bold yellow"

/-- The style of an impact. -/
def impact (impact : String) : String :=
  if impact = "High" then "bold red"
  else if impact = "Medium" then "yellow"
  else if impact = "Low" then "cyan"
  else dim

/-- The style of a severity's word. -/
def severity (word : String) : String :=
  if word = "error" then "bold red"
  else if word = "warning" then "yellow"
  else dim

end SourceDrift.Cli.Theme
