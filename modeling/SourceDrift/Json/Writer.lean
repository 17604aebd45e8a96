/-
Values as text.

All written forms differ only in the blanks between tokens, so there is one
writer and a value that says which blanks it leaves. Empty lists and objects are
written closed up in every form.
-/
import SourceDrift.Json.Number
import SourceDrift.Json.Quoted

set_option autoImplicit false

namespace SourceDrift.Json

/-- The blanks a writer leaves, by depth where they are indented. -/
structure Spacing where
  /-- Before the first item of a list or object. -/
  afterOpen : Nat → List Char
  /-- Between two items, after the comma. -/
  afterComma : Nat → List Char
  /-- After the last item, before the closing bracket. -/
  beforeClose : Nat → List Char
  /-- Between a key and its value, after the colon. -/
  afterColon : List Char

namespace Spacing

/-- No blanks at all. -/
def compact : Spacing :=
  ⟨fun _ => [], fun _ => [], fun _ => [], []⟩

/-- One line, a space after each comma and each colon. -/
def oneLine : Spacing :=
  ⟨fun _ => [], fun _ => [' '], fun _ => [], [' ']⟩

/-- A new line with a tab for each level. -/
def tabs (depth : Nat) : List Char :=
  '\n' :: List.replicate depth '\t'

/-- One item a line, indented by tabs. -/
def indented : Spacing :=
  ⟨tabs, tabs, tabs, [' ']⟩

end Spacing

mutual
/-- The text of a value that stands at a depth. -/
def write (s : Spacing) (depth : Nat) : Json → List Char
  | .null => "null".toList
  | .bool true => "true".toList
  | .bool false => "false".toList
  | .int n => Numeral.ofInt n
  | .float x => Number.ofBinary64 x
  | .str t => Quoted.quote t
  | .arr [] => ['[', ']']
  | .arr (v :: rest) =>
    '[' :: s.afterOpen (depth + 1) ++ write s (depth + 1) v ++ writeItems s (depth + 1) rest ++
      s.beforeClose depth ++ [']']
  | .obj [] => ['\x7b', '\x7d']
  | .obj ((k, v) :: rest) =>
    '\x7b' :: s.afterOpen (depth + 1) ++ Quoted.quote k ++ ':' :: s.afterColon ++
      write s (depth + 1) v ++ writeMembers s (depth + 1) rest ++ s.beforeClose depth ++ ['\x7d']

/-- The text of the items after the first. -/
def writeItems (s : Spacing) (depth : Nat) : List Json → List Char
  | [] => []
  | v :: rest => ',' :: s.afterComma depth ++ write s depth v ++ writeItems s depth rest

/-- The text of the members after the first. -/
def writeMembers (s : Spacing) (depth : Nat) : List Member → List Char
  | [] => []
  | (k, v) :: rest =>
    ',' :: s.afterComma depth ++ Quoted.quote k ++ ':' :: s.afterColon ++ write s depth v ++
      writeMembers s depth rest
end

mutual
/-- Whether every integer of a value has few enough digits to be written. -/
def isWritable : Json → Bool
  | .int n => Numeral.isShowable n
  | .arr items => areWritable items
  | .obj members => membersWritable members
  | _ => true

/-- Whether items can be written. -/
def areWritable : List Json → Bool
  | [] => true
  | v :: rest => isWritable v && areWritable rest

/-- Whether the values of members can be written. -/
def membersWritable : List Member → Bool
  | [] => true
  | (_, v) :: rest => isWritable v && membersWritable rest
end

/-- The text of a value. -/
def render (s : Spacing) (v : Json) : String :=
  String.ofList (write s 0 v)

/-- **The canonical text**: keys in code-point order at every level and no blanks,
so that two values have one text exactly when they differ in the order of keys
at most. -/
def canonical (v : Json) : String :=
  render .compact v.sortKeys

end SourceDrift.Json
