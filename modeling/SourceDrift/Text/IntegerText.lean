/-
Integers as people write them.

A text is first read as a plain integer, digits behind a minus sign or not. If it is
none it may still be one that has blanks around it, a sign, zeros before its digits,
single underscores between them or a fraction of zeros behind them; these are taken
away one after the other until a plain integer is left. Zeros and underscores in
front are dropped in one go, and a minus sign may follow them.

Too many digits are a problem of their own only where the text starts out as a plain
integer.
-/
import SourceDrift.Text.Blank
import SourceDrift.Text.Numeral

set_option autoImplicit false

namespace SourceDrift.IntegerText

/-- Why a text is no integer. -/
inductive Problem where
  | malformed
  | oversized
  deriving DecidableEq

/-! ## Down to a plain integer -/

/-- Drops the zeros and underscores behind a zero; `last` is the latest of those
dropped, which comes back where no digit takes its place. -/
def afterZeros? (last : Char) : List Char → Option (List Char)
  | [] => some [last]
  | c :: rest =>
    if c = '0' ∨ c = '_' then afterZeros? c rest
    else if Numeral.isDigit c ∨ c = '-' then some (c :: rest)
    else if c = '.' then some (last :: c :: rest)
    else none

/-- Drops the zeros in front of an integer, which has to start with a digit. -/
def dropZeros? : List Char → Option (List Char)
  | [] => none
  | c :: rest =>
    if c = '0' then afterZeros? c rest
    else if Numeral.isDigit c then some (c :: rest)
    else none

/-- Drops a plus sign and the zeros in front of an integer. -/
def dropFront? : List Char → Option (List Char)
  | '-' :: rest => (dropZeros? rest).map ('-' :: ·)
  | '+' :: rest => dropZeros? rest
  | cs => dropZeros? cs

/-- Drops a fraction of zeros. Any other fraction stays. -/
def dropFraction (cs : List Char) : List Char :=
  match cs.dropWhile (· != '.') with
  | _ :: zero :: zeros =>
    if (zero :: zeros).all (· == '0') then cs.takeWhile (· != '.') else cs
  | _ => cs

/-- Whether two underscores stand side by side. -/
def hasDoubleUnderscore : List Char → Bool
  | '_' :: '_' :: _ => true
  | _ :: rest => hasDoubleUnderscore rest
  | [] => false

/-- Drops the underscores, if each of them stands alone and inside the text. -/
def dropUnderscores (cs : List Char) : List Char :=
  if cs.head? = some '_' ∨ cs.getLast? = some '_' ∨ hasDoubleUnderscore cs then cs
  else cs.filter (· != '_')

/-! ## Plain integers -/

/-- The value of digits without needless zeros in front, behind a minus sign or not.
Too many digits are found before what stands behind them. -/
def plainValue (cs : List Char) : Except Problem Int :=
  let (negative, unsigned) :=
    match cs with
    | '-' :: rest => (true, rest)
    | _ => (false, cs)
  match unsigned.takeWhile Numeral.isDigit with
  | [] => .error .malformed
  | first :: more =>
    if first = '0' ∧ !more.isEmpty then .error .malformed
    else if Numeral.maxDigits < more.length + 1 then .error .oversized
    else if unsigned.length ≠ more.length + 1 then .error .malformed
    else
      let magnitude : Int := Numeral.value unsigned
      .ok (if negative then -magnitude else magnitude)

/-- The plain integer that is left of a text without what people put around it. -/
def strip? (cs : List Char) : Option (List Char) :=
  (dropFront? (Text.trim Text.isWhite cs)).map fun rest => dropUnderscores (dropFraction rest)

/-- **The integer that a text denotes.** -/
def read (s : String) : Except Problem Int :=
  match plainValue s.toList with
  | .ok n => .ok n
  | .error .oversized => .error .oversized
  | .error .malformed =>
    match (strip? s.toList).map plainValue with
    | some (.ok n) => .ok n
    | _ => .error .malformed

end SourceDrift.IntegerText
