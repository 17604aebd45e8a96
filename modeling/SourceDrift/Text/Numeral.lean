/-
Numbers in decimal digits.

`digits` and `value` are the two directions between a natural number and its
decimal text; everything that prints or reads a number goes through them. Digits
here are the ten ASCII ones. Classes of digits that other writing systems have
are a matter of `Text.Blank` and `Text.DecimalDigit`, not of this file.

A text from outside may only spell numbers of up to `maxDigits` digits; a longer
one is refused, whatever it denotes. No longer one is shown in a line either.
-/

set_option autoImplicit false

namespace SourceDrift.Numeral

/-- The decimal digits of a number, most significant first, with no leading zero
except for zero itself. -/
def digits (n : Nat) : List Char :=
  Nat.toDigits 10 n

/-- The decimal text of an integer. -/
def ofInt : Int → List Char
  | .ofNat n => digits n
  | .negSucc n => '-' :: digits (n + 1)

/-- Whether a character is one of the ten ASCII digits. -/
def isDigit (c : Char) : Bool :=
  '0' ≤ c && c ≤ '9'

/-- The value of an ASCII digit. -/
def digitValue (c : Char) : Nat :=
  c.toNat - '0'.toNat

/-- The number that a list of digits denotes. -/
def value (cs : List Char) : Nat :=
  cs.foldl (fun n c => 10 * n + digitValue c) 0

/-- The most digits that a number may have in a text from outside. -/
def maxDigits : Nat := 4300

/-- A number with too many digits. -/
structure TooLong where
  digits : Nat
  deriving DecidableEq

/-- The words for a number with too many digits. -/
def TooLong.message (e : TooLong) : String :=
  s!"Exceeds the limit ({maxDigits} digits) for integer string conversion: value has " ++
    s!"{e.digits} digits; use sys.set_int_max_str_digits() to increase the limit"

/-- Whether a number has no more digits than can be shown. -/
def isShowable (n : Int) : Bool :=
  (digits n.natAbs).length ≤ maxDigits

/-- The number that a list of digits denotes, unless there are too many of them.
Zeros at the start count. -/
def boundedValue (cs : List Char) : Except TooLong Nat :=
  if maxDigits < cs.length then .error ⟨cs.length⟩ else .ok (value cs)

/-- The lower-case hexadecimal digit of a number below 16. -/
def hexDigit (n : Nat) : Char :=
  if n < 10 then Char.ofNat ('0'.toNat + n) else Char.ofNat ('a'.toNat + (n - 10))

/-- The value of a hexadecimal digit of either case. -/
def hexValue? (c : Char) : Option Nat :=
  if '0' ≤ c && c ≤ '9' then some (c.toNat - '0'.toNat)
  else if 'a' ≤ c && c ≤ 'f' then some (c.toNat - 'a'.toNat + 10)
  else if 'A' ≤ c && c ≤ 'F' then some (c.toNat - 'A'.toNat + 10)
  else none

/-- The `width` lowest hexadecimal digits of a number, most significant first. -/
def hexDigits : Nat → Nat → List Char
  | 0, _ => []
  | width + 1, n => hexDigits width (n / 16) ++ [hexDigit (n % 16)]

end SourceDrift.Numeral
