/-
What the command line prints, before it is rendered.

Markup puts styles in brackets. Text from outside is escaped where it might hold
something that reads as a tag: a bracket that opens one gets a backslash, and the
backslashes before it are doubled so that they stay what they were.
-/

set_option autoImplicit false

namespace SourceDrift.Cli

/-- Something that is printed. -/
inductive Printed where
  /-- Text with styles in it. -/
  | markup (text : String)
  /-- Text that stands for itself. -/
  | plain (text : String)
  /-- An empty line. -/
  | blank
  /-- A table whose cells hold markup. -/
  | table (title : String) (columns : List String) (rows : List (List String))

/-- The texts with styles in them that something printed is made of, in the order in
which the console makes them out: the cells of a table column by column, each column
under its heading, and the title after them. -/
def Printed.styledTexts : Printed → List String
  | .markup text => [text]
  | .plain _ => []
  | .blank => []
  | .table title columns rows =>
    (columns.zipIdx.flatMap fun (heading, i) => heading :: rows.filterMap (·[i]?)) ++ [title]

namespace Markup

/-- A text in a style. -/
def styled (style text : String) : String :=
  "[" ++ style ++ "]" ++ text ++ "[/]"

/-- Whether what follows an opening bracket makes it a tag: a first character that
a tag may have, and a closing bracket before the next opening one. -/
def opensTag : List Char → Bool
  | [] => false
  | c :: rest =>
    (('a' ≤ c && c ≤ 'z') || c == '#' || c == '/' || c == '@') &&
      (rest.find? fun d => d == '[' || d == ']') == some ']'

/-- Escapes tags, after a number of backslashes that have been read and not yet
written. -/
def escapeFrom (slashes : Nat) : List Char → List Char
  | [] => List.replicate slashes '\\'
  | c :: rest =>
    if c = '\\' then escapeFrom (slashes + 1) rest
    -- The backslashes are doubled and one more takes the bracket's meaning away.
    else if c = '[' ∧ opensTag rest then
      List.replicate (2 * slashes + 1) '\\' ++ c :: escapeFrom 0 rest
    else List.replicate slashes '\\' ++ c :: escapeFrom 0 rest

/-- A single backslash at the end is doubled, so that what is put behind the text
is not escaped by it. -/
def closeSlash (cs : List Char) : List Char :=
  match cs.reverse with
  | '\\' :: '\\' :: _ => cs
  | '\\' :: _ => cs ++ ['\\']
  | _ => cs

/-- **The text with nothing in it that reads as a tag.** -/
def escape (s : String) : String :=
  String.ofList (closeSlash (escapeFrom 0 s.toList))

end Markup
end SourceDrift.Cli
