/-
Blank characters, and text without the blanks around it.

Two sets are in use. `isWhite` is the Unicode property White_Space. `isBlank`
adds the four separators `U+001C` to `U+001F`, which count as blanks where text
is trimmed or searched but not where a number is read.
-/

set_option autoImplicit false

namespace SourceDrift.Text

/-- The Unicode property White_Space. -/
def isWhite (c : Char) : Bool :=
  let n := c.toNat
  (9 ≤ n && n ≤ 13) || n == 0x20 || n == 0x85 || n == 0xA0 || n == 0x1680 ||
    (0x2000 ≤ n && n ≤ 0x200A) || n == 0x2028 || n == 0x2029 || n == 0x202F || n == 0x205F ||
    n == 0x3000

/-- White space and the four information separators. -/
def isBlank (c : Char) : Bool :=
  isWhite c || (0x1C ≤ c.toNat && c.toNat ≤ 0x1F)

/-- The characters without the leading and trailing ones of a class. -/
def trim (p : Char → Bool) (cs : List Char) : List Char :=
  ((cs.dropWhile p).reverse.dropWhile p).reverse

/-- The text without the blanks around it. -/
def strip (s : String) : String :=
  String.ofList (trim isBlank s.toList)

/-- The pieces between the occurrences of a character; one piece if it does not
occur. -/
def splitOn (sep : Char) : List Char → List (List Char)
  | [] => [[]]
  | c :: rest =>
    if c = sep then [] :: splitOn sep rest
    else
      match splitOn sep rest with
      | [] => [[c]]
      | piece :: pieces => (c :: piece) :: pieces

/-- The pieces with one character between them. -/
def joinWith (sep : Char) : List (List Char) → List Char
  | [] => []
  | [piece] => piece
  | piece :: rest => piece ++ sep :: joinWith sep rest

end SourceDrift.Text
