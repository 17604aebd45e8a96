/-
Integers in a layout.

The letter of a layout chooses between digits in one of four bases, the character
with the number, and decimal fractions, with or without a power of ten. Where zeros
fill up the width inside the number, they are grouped like its digits.
-/
import SourceDrift.Binary64
import SourceDrift.Text.Layout.Basic
import SourceDrift.Text.Numeral

set_option autoImplicit false

namespace SourceDrift.Layout

/-- A number taken apart: the mark of its base, the digits that are grouped, and all
that comes behind them. -/
structure Written where
  mark : List Char
  digits : List Char
  tail : List Char

/-! ## Digits -/

/-- Zeros up to a width in front of digits, and a separator between groups of `size`.
The digits are in reverse, and so is the result; `fuel` bounds the number of groups.
A separator counts towards the width and never stands in front. -/
def groupFrom (size : Nat) (separator : Char) : Nat → Nat → List Char → List Char
  | 0, _, digits => digits
  | fuel + 1, width, digits =>
    let length := min size (max (max digits.length width) 1)
    let group := digits.take length ++ List.replicate (length - digits.length) '0'
    let rest := digits.drop length
    if rest.isEmpty ∧ width ≤ length then group
    else group ++ separator :: groupFrom size separator fuel (width - length - 1) rest

/-- Digits with zeros in front up to a width, in groups if there is a separator. -/
def group (separator : Option Char) (size width : Nat) (digits : List Char) : List Char :=
  match separator with
  | none => List.replicate (width - digits.length) '0' ++ digits
  | some separator =>
    (groupFrom size separator (digits.length + width + 1) width digits.reverse).reverse

/-! ## Fractions -/

/-- A point, if anything is behind it or it is asked for all the same. -/
def point (always : Bool) (fraction : List Char) : List Char :=
  if always || !fraction.isEmpty then '.' :: fraction else []

/-- Leaves out zeros at the end. -/
def dropZeros (digits : List Char) : List Char :=
  (digits.reverse.dropWhile (· == '0')).reverse

/-- The first `count` digits of a number and the exponent of the first, rounded to the
nearest, a tie to the even one. -/
def leading (count n : Nat) : List Char × Nat :=
  let length := (Numeral.digits n).length
  if length ≤ count then
    (Numeral.digits n ++ List.replicate (count - length) '0', length - 1)
  else
    let rounded := Numeral.digits (Binary64.roundQuotient n (tenTo (length - count)))
    (rounded.take count, length - 1 + (rounded.length - count))

/-- The power of ten behind a fraction. -/
def power (mark : Char) (exponent : Nat) : List Char :=
  mark :: '+' :: (if exponent < 10 then ['0'] else []) ++ Numeral.digits exponent

/-- A number with a fraction of `places` digits. -/
def fixed (always : Bool) (places n : Nat) : Written :=
  ⟨[], Numeral.digits n, point always (List.replicate places '0')⟩

/-- A number with one digit in front of a fraction of `places` digits, and a power of
ten. -/
def scientific (always : Bool) (mark : Char) (places n : Nat) : Written :=
  let (digits, exponent) := leading (places + 1) n
  ⟨[], digits.take 1, point always (digits.drop 1) ++ power mark exponent⟩

/-- A number of `count` digits, with a power of ten only where they would not do. Zeros
at the end of the fraction are left out, unless they are asked for. -/
def general (always : Bool) (mark : Char) (count n : Nat) : Written :=
  let (digits, exponent) := leading (max count 1) n
  let kept (fraction : List Char) := point always (if always then fraction else dropZeros fraction)
  if exponent < max count 1 then
    ⟨[], digits.take (exponent + 1), kept (digits.drop (exponent + 1))⟩
  else ⟨[], digits.take 1, kept (digits.drop 1) ++ power mark exponent⟩

/-! ## Numbers -/

/-- Whether a letter stands for a fraction. -/
def isFractional (letter : Char) : Bool :=
  "eEfFgG%".toList.contains letter

/-- A magnitude as a fraction. -/
def writeFraction (l : Layout) (letter : Char) (n : Nat) : Written :=
  let precision := l.precision.getD 6
  match letter with
  | 'e' => scientific l.alternate 'e' precision n
  | 'E' => scientific l.alternate 'E' precision n
  | 'g' => general l.alternate 'e' precision n
  | 'G' => general l.alternate 'E' precision n
  | '%' =>
    let written := fixed l.alternate precision (100 * n)
    { written with tail := written.tail ++ ['%'] }
  | _ => fixed l.alternate precision n

/-- A magnitude as an integer. -/
def writeInteger (l : Layout) (letter : Char) (n : Nat) : Written :=
  let inBase (base : Nat) (mark : String) : Written :=
    ⟨if l.alternate then mark.toList else [], Nat.toDigits base n, []⟩
  match letter with
  | 'b' => inBase 2 "0b"
  | 'o' => inBase 8 "0o"
  | 'x' => inBase 16 "0x"
  | 'X' => ⟨if l.alternate then "0X".toList else [], (Nat.toDigits 16 n).map Char.toUpper, []⟩
  | _ => ⟨[], Numeral.digits n, []⟩

/-- How the sign of a number is shown. -/
def signText (l : Layout) (n : Int) : List Char :=
  if n < 0 then ['-'] else l.sign.toList.filter (· != '-')

/-- Sets a number that has been written in the layout's width. -/
def setWritten (l : Layout) (letter : Char) (sign : List Char) (w : Written) : List Char :=
  let side := l.side.getD (if l.zeros then .inside else .right)
  let width :=
    if l.fillerOr = '0' ∧ side = .inside then
      l.width.getD 0 - (sign.length + w.mark.length + w.tail.length)
    else 0
  let size := if "boxX".toList.contains letter then 4 else 3
  l.fill side (sign ++ w.mark) (group l.grouping size width w.digits ++ w.tail)

/-- The character with a number, set in the layout's width. -/
def setCharacter (l : Layout) (n : Int) : Except Fault (List Char) :=
  if l.sign.isSome then .error .signedCharacter
  else if l.alternate then .error .alternateCharacter
  else if n < 0 ∨ 0x110000 ≤ n then .error .noCharacter
  else if l.isTooWide then .error .noRoom
  else
    .ok (l.fill (l.side.getD (if l.zeros then .inside else .right)) [] [Char.ofNat n.toNat])

/-- Sets a number in a layout that has been read. -/
def setNumber (l : Layout) (n : Int) : Except Fault (List Char) :=
  let letter := l.letter.getD 'd'
  if isFractional letter then
    if l.precision.any (2147483647 < ·) then .error .hugePrecision
    else if l.isTooWide ∨ l.precision.any (greatestWidth < ·) then .error .noRoom
    else .ok (l.setWritten letter (l.signText n) (l.writeFraction letter n.natAbs))
  else if !"bcdoxXn".toList.contains letter then .error (.unknownLetter letter "int")
  else if l.precision.isSome then .error .preciseInteger
  else if l.coercesZero then .error .zeroOfInteger
  else if letter = 'c' then l.setCharacter n
  else if l.isTooWide then .error .noRoom
  else .ok (l.setWritten letter (l.signText n) (l.writeInteger letter n.natAbs))

/-- **Sets a number** by the words of a layout. -/
def ofNumber (cs : List Char) (n : Int) : Except Fault (List Char) :=
  if cs.isEmpty then .ok (Numeral.ofInt n) else do (← read "int" 'd' cs).setNumber n

end SourceDrift.Layout
