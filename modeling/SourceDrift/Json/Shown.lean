/-
Values as a message shows them.

Text that is shown by itself is shown bare; inside a list or an object it stands
in quotes. The absent value and the truth values are capitalised words, numbers
that are not finite are lower-case ones.
-/
import SourceDrift.Json.Number
import SourceDrift.Text.Shown

set_option autoImplicit false

namespace SourceDrift.Json

/-- A double in a message. -/
def shownFloat : Binary64 → List Char
  | .infinite negative => Number.signText negative ++ "inf".toList
  | .nan => "nan".toList
  | x => Number.ofBinary64 x

mutual
/-- A value inside a list or an object. -/
def shownInside : Json → List Char
  | .null => "None".toList
  | .bool true => "True".toList
  | .bool false => "False".toList
  | .int n => Numeral.ofInt n
  | .float x => shownFloat x
  | .str s => Text.shown s
  | .arr [] => ['[', ']']
  | .arr (v :: rest) => '[' :: shownInside v ++ shownItems rest ++ [']']
  | .obj [] => ['\x7b', '\x7d']
  | .obj ((k, v) :: rest) =>
    '\x7b' :: Text.shown k ++ ':' :: ' ' :: shownInside v ++ shownMembers rest ++ ['\x7d']

/-- The items after the first. -/
def shownItems : List Json → List Char
  | [] => []
  | v :: rest => ',' :: ' ' :: shownInside v ++ shownItems rest

/-- The members after the first. -/
def shownMembers : List Member → List Char
  | [] => []
  | (k, v) :: rest =>
    ',' :: ' ' :: Text.shown k ++ ':' :: ' ' :: shownInside v ++ shownMembers rest
end

/-- A value by itself. -/
def shown : Json → String
  | .str s => s
  | v => String.ofList (shownInside v)

end SourceDrift.Json
