/-
Numbers as a document spells them.

A number is an integer unless it has a fraction or an exponent. A double is
written with the fewest digits that read back: positionally while the exponent of
its first digit lies from -4 to 15, always with a fraction part, and in
scientific notation outside that range, with a sign and at least two digits in
the exponent.
-/
import SourceDrift.Json.Value
import SourceDrift.Text.Numeral

set_option autoImplicit false

namespace SourceDrift.Json.Number

/-! ## Writing -/

/-- The mark of a negative number. -/
def signText (negative : Bool) : List Char :=
  if negative then ['-'] else []

/-- Digits with a point after the first `whole` of them, filled up with zeros on
either side where the point lies outside them. -/
def positional (digits : List Char) (whole : Int) : List Char :=
  if whole ≤ 0 then
    '0' :: '.' :: List.replicate (-whole).toNat '0' ++ digits
  else if digits.length ≤ whole.toNat then
    digits ++ List.replicate (whole.toNat - digits.length) '0' ++ ['.', '0']
  else
    digits.take whole.toNat ++ '.' :: digits.drop whole.toNat

/-- The exponent of scientific notation: its sign and at least two digits. -/
def exponentText (exponent : Int) : List Char :=
  let digits := Numeral.digits exponent.natAbs
  (if exponent < 0 then '-' else '+') :: (if digits.length < 2 then '0' :: digits else digits)

/-- Digits in scientific notation; a single digit takes no point. -/
def scientific (digits : List Char) (exponent : Int) : List Char :=
  match digits with
  | [] => []
  | [d] => d :: 'e' :: exponentText exponent
  | d :: rest => d :: '.' :: rest ++ 'e' :: exponentText exponent

/-- The text of a decimal magnitude. -/
def decimalText (d : Binary64.Decimal) : List Char :=
  let digits := Numeral.digits d.digits
  let whole := d.exponent + digits.length
  if -4 ≤ whole - 1 ∧ whole - 1 < 16 then positional digits whole
  else scientific digits (whole - 1)

/-- The decimal with a zero at the end of its digits moved into the exponent. -/
def dropZero (d : Binary64.Decimal) : Binary64.Decimal :=
  if d.digits % 10 = 0 then ⟨d.digits / 10, d.exponent + 1⟩ else d

/-- The shortest decimal of a rank, whose digits end in one zero at most; zero
itself is one digit. -/
def writtenDecimal (rank : Nat) : Binary64.Decimal :=
  if rank = 0 then ⟨0, 0⟩ else dropZero (Binary64.shortest rank)

/-- The text of a double. The three that no decimal denotes have names. -/
def ofBinary64 : Binary64 → List Char
  | .finite negative rank => signText negative ++ decimalText (writtenDecimal rank)
  | .infinite negative => signText negative ++ "Infinity".toList
  | .nan => "NaN".toList

/-! ## Reading -/

/-- Splits off the longest run of digits. -/
def takeDigits (cs : List Char) : List Char × List Char :=
  (cs.takeWhile Numeral.isDigit, cs.dropWhile Numeral.isDigit)

/-- Splits off the digits of a whole part: a zero alone, or a run that starts
with another digit. -/
def takeWhole? (cs : List Char) : Option (List Char × List Char) :=
  match cs with
  | [] => none
  | c :: rest =>
    if c = '0' then some ([c], rest)
    else if Numeral.isDigit c then some (takeDigits cs)
    else none

/-- Splits off the digits of a fraction, if a point with a digit after it
follows. -/
def takeFraction (cs : List Char) : List Char × List Char :=
  match cs with
  | '.' :: rest =>
    match takeDigits rest with
    | ([], _) => ([], cs)
    | (digits, after) => (digits, after)
  | _ => ([], cs)

/-- Splits off an exponent: the letter in either case, an optional sign and at
least one digit. Without a digit the letter is left alone. -/
def takeExponent (cs : List Char) : Option Int × List Char :=
  match cs with
  | [] => (none, cs)
  | e :: rest =>
    if e = 'e' ∨ e = 'E' then
      let (negative, unsigned) :=
        match rest with
        | '-' :: more => (true, more)
        | '+' :: more => (false, more)
        | _ => (false, rest)
      match takeDigits unsigned with
      | ([], _) => (none, cs)
      | (digits, after) =>
        let magnitude : Int := Numeral.value digits
        (some (if negative then -magnitude else magnitude), after)
    else (none, cs)

/-- A number as a text spells it. -/
structure Literal where
  negative : Bool
  whole : List Char
  fraction : List Char
  exponent : Option Int
  deriving DecidableEq

/-- The value of a number. Only an integer can have too many digits, because a double
does not keep them. -/
def Literal.value (l : Literal) : Except Numeral.TooLong Json :=
  -- A fraction or an exponent makes it a double, even where the number is whole.
  match l.fraction, l.exponent with
  | [], none =>
    (Numeral.boundedValue l.whole).map fun (n : Nat) =>
      .int (if l.negative then -(n : Int) else n)
  | _, _ =>
    .ok (.float (Binary64.ofDecimal l.negative
      ⟨Numeral.value (l.whole ++ l.fraction), l.exponent.getD 0 - l.fraction.length⟩))

/-- Splits off the mark of a negative number. -/
def takeSign (cs : List Char) : Bool × List Char :=
  match cs with
  | '-' :: rest => (true, rest)
  | _ => (false, cs)

/-- Reads the number at the start of the text, as far as it goes. -/
def read? (cs : List Char) : Option (Literal × List Char) :=
  let (negative, unsigned) := takeSign cs
  match takeWhole? unsigned with
  | none => none
  | some (whole, afterWhole) =>
    let (fraction, afterFraction) := takeFraction afterWhole
    let (exponent, rest) := takeExponent afterFraction
    some (⟨negative, whole, fraction, exponent⟩, rest)

end SourceDrift.Json.Number
