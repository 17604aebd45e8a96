/-
Layouts: how a value is set in a text.

A layout says in this order what fills up the width and on which side the value
stands, how signs are shown, how wide the value is at least, how its digits are
grouped, how precise it is, and by which letter it is written. Everything in it is
optional. What the parts mean for a text is said here, and for numbers in
`Text.Layout.Number`.
-/
import SourceDrift.Text.DecimalDigit

set_option autoImplicit false

namespace SourceDrift

/-- The side on which a value stands in its width. -/
inductive Side where
  | left
  | right
  | middle
  /-- The sign stands on the left and the rest on the right. -/
  | inside
  deriving DecidableEq

/-- A layout. -/
structure Layout where
  filler : Option Char
  side : Option Side
  sign : Option Char
  coercesZero : Bool
  alternate : Bool
  zeros : Bool
  width : Option Nat
  grouping : Option Char
  precision : Option Nat
  letter : Option Char
  deriving DecidableEq

namespace Layout

/-- What is wrong with a layout, or with one for a value of a kind. -/
inductive Fault where
  | hugeNumber
  | twoGroupings
  | missingPrecision
  | hugePrecision
  | unreadable (layout kind : String)
  | groupedLetter (grouping letter : Char)
  | unknownLetter (letter : Char) (kind : String)
  | signedText
  | blankSignedText
  | zeroOfText
  | alternateText
  | insideText
  | preciseInteger
  | zeroOfInteger
  | signedCharacter
  | alternateCharacter
  | noCharacter
  | noRoom
  deriving DecidableEq

/-- A letter in a message: as it is, if it is visible and plain, and else by its number. -/
def letterText (c : Char) : String :=
  if 32 < c.toNat ∧ c.toNat < 128 then String.ofList [c]
  else "\\x" ++ String.ofList (Nat.toDigits 16 c.toNat)

/-- The words for a fault. -/
def Fault.message : Fault → String
  | hugeNumber => "Too many decimal digits in format string"
  | twoGroupings => "Cannot specify both ',' and '_'."
  | missingPrecision => "Format specifier missing precision"
  | hugePrecision => "precision too big"
  | unreadable layout kind =>
    "Invalid format specifier '" ++ layout ++ "' for object of type '" ++ kind ++ "'"
  | groupedLetter grouping letter =>
    "Cannot specify '" ++ String.ofList [grouping] ++ "' with '" ++ letterText letter ++ "'."
  | unknownLetter letter kind =>
    "Unknown format code '" ++ letterText letter ++ "' for object of type '" ++ kind ++ "'"
  | signedText => "Sign not allowed in string format specifier"
  | blankSignedText => "Space not allowed in string format specifier"
  | zeroOfText => "Negative zero coercion (z) not allowed in string format specifier"
  | alternateText => "Alternate form (#) not allowed in string format specifier"
  | insideText => "'=' alignment not allowed in string format specifier"
  | preciseInteger => "Precision not allowed in integer format specifier"
  | zeroOfInteger => "Negative zero coercion (z) not allowed in integer format specifier"
  | signedCharacter => "Sign not allowed with integer format specifier 'c'"
  | alternateCharacter => "Alternate form (#) not allowed with integer format specifier 'c'"
  | noCharacter => "%c arg not in range(0x110000)"
  | noRoom => ""

/-! ## Reading -/

/-- The greatest number that a template can give. -/
def greatestNumber : Nat := 9223372036854775807

/-- The side that a character stands for. -/
def side? : Char → Option Side
  | '<' => some .left
  | '>' => some .right
  | '^' => some .middle
  | '=' => some .inside
  | _ => none

/-- Reads the filler and the side, and what is behind them. -/
def readSide : List Char → Option Char × Option Side × List Char
  | c :: d :: rest =>
    match side? d, side? c with
    | some side, _ => (some c, some side, rest)
    | none, some side => (none, some side, d :: rest)
    | none, none => (none, none, c :: d :: rest)
  | [c] => if (side? c).isSome then (none, side? c, []) else (none, none, [c])
  | [] => (none, none, [])

/-- Reads one of the characters at the start, if it is there. -/
def readOne (choices : List Char) : List Char → Option Char × List Char
  | c :: rest => if choices.contains c then (some c, rest) else (none, c :: rest)
  | [] => (none, [])

/-- Reads a number at the start, if there is one. -/
def readNumber (cs : List Char) : Except Fault (Option Nat × List Char) :=
  let digits := cs.takeWhile Text.isDecimalDigit
  if greatestNumber < Text.decimalValue digits then .error .hugeNumber
  else .ok (if digits.isEmpty then none else some (Text.decimalValue digits),
    cs.drop digits.length)

/-- Reads what groups the digits. -/
def readGrouping (cs : List Char) : Except Fault (Option Char × List Char) :=
  let (comma, behindComma) := readOne [','] cs
  let (line, behindLine) := readOne ['_'] behindComma
  if line.isSome && (comma.isSome || behindLine.head? == some ',') then .error .twoGroupings
  else .ok (comma.or line, behindLine)

/-- Reads the precision behind its point. -/
def readPrecision : List Char → Except Fault (Option Nat × List Char)
  | '.' :: rest => do
    match ← readNumber rest with
    | (none, _) => .error .missingPrecision
    | (precision, rest) => .ok (precision, rest)
  | cs => .ok (none, cs)

/-- Checks that digits may be grouped where a letter says how the value is written. -/
def checkGrouping (grouping letter : Char) : Except Fault Unit :=
  if "deEfFgG%".toList.contains letter then .ok ()
  else if grouping = '_' ∧ "boxX".toList.contains letter then .ok ()
  else .error (.groupedLetter grouping letter)

/-- **Reads a layout** for a value of a kind that is written by `letter` where the layout
has none. -/
def read (kind : String) (letter : Char) (cs : List Char) : Except Fault Layout := do
  let (filler, side, rest) := readSide cs
  let (sign, rest) := readOne [' ', '+', '-'] rest
  let (coercesZero, rest) := readOne ['z'] rest
  let (alternate, rest) := readOne ['#'] rest
  let (zeros, rest) := if filler.isSome then (none, rest) else readOne ['0'] rest
  let (width, rest) ← readNumber rest
  let (grouping, rest) ← readGrouping rest
  let (precision, rest) ← readPrecision rest
  if 1 < rest.length then .error (.unreadable (String.ofList cs) kind)
  match grouping with
  | some grouping => checkGrouping grouping (rest.head?.getD letter)
  | none => pure ()
  .ok ⟨filler, side, sign, coercesZero.isSome, alternate.isSome, zeros.isSome, width, grouping,
    precision, rest.head?⟩

/-! ## Filling up -/

/-- The greatest width for which there is room. -/
def greatestWidth : Nat := 10000000

/-- Whether there is no room for the width. -/
def isTooWide (l : Layout) : Bool :=
  l.width.any (greatestWidth < ·)

/-- What fills up the width. -/
def fillerOr (l : Layout) : Char :=
  l.filler.getD (if l.zeros then '0' else ' ')

/-- A value filled up to the width; `sign` is what stands apart where the value stands
inside. -/
def fill (l : Layout) (side : Side) (sign text : List Char) : List Char :=
  let missing := l.width.getD 0 - (sign.length + text.length)
  let filling (n : Nat) := List.replicate n l.fillerOr
  match side with
  | .left => sign ++ text ++ filling missing
  | .right => filling missing ++ sign ++ text
  | .middle => filling (missing / 2) ++ sign ++ text ++ filling (missing - missing / 2)
  | .inside => sign ++ filling missing ++ text

/-! ## Text -/

/-- Sets a text in a layout that has been read. -/
def setText (l : Layout) (text : List Char) : Except Fault (List Char) :=
  if l.letter.any (· != 's') then .error (.unknownLetter (l.letter.getD 's') "str")
  else if l.sign = some ' ' then .error .blankSignedText
  else if l.sign.isSome then .error .signedText
  else if l.coercesZero then .error .zeroOfText
  else if l.alternate then .error .alternateText
  else if l.side = some .inside then .error .insideText
  else if l.isTooWide then .error .noRoom
  else
    .ok (l.fill (l.side.getD .left) [] (text.take (l.precision.getD text.length)))

/-- **Sets a text** by the words of a layout. -/
def ofText (cs text : List Char) : Except Fault (List Char) :=
  if cs.isEmpty then .ok text else do (← read "str" 's' cs).setText text

end Layout
end SourceDrift
