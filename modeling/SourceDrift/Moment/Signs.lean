/-
Moments in a notation of letters.

A sign is a run of one letter, and the longer it is, the longer the part of the date
or the time is written that it stands for. Whatever is no sign stands for itself, and
so does a sign between brackets.
-/
import SourceDrift.Moment.Basic

set_option autoImplicit false

namespace SourceDrift.Moment

/-- The signs, each with its text. A sign stands before those that it begins with. -/
def signs (m : Moment) : List (String × List Char) :=
  let fraction := padded 6 m.microsecond
  [("HH", padded 2 m.hour), ("H", padded 1 m.hour), ("hh", padded 2 m.clockHour),
    ("h", padded 1 m.clockHour), ("mm", padded 2 m.minute), ("m", padded 1 m.minute),
    ("ss", padded 2 m.second), ("s", padded 1 m.second), ("SSSSSS", fraction),
    ("SSSSS", fraction.take 5), ("SSSS", fraction.take 4), ("SSS", fraction.take 3),
    ("SS", fraction.take 2), ("S", fraction.take 1), ("YYYY", padded 4 m.year),
    ("YY", padded 2 (m.year % 100)), ("MMMM", m.monthName), ("MMM", m.monthName.take 3),
    ("MM", padded 2 m.month), ("M", padded 1 m.month), ("DDDD", padded 3 m.dayOfYear),
    ("DDD", padded 1 m.dayOfYear), ("DD", padded 2 m.day), ("D", padded 1 m.day),
    ("ZZ", "+0000".toList), ("Z", "+00:00".toList), ("zz", "UTC".toList), ("A", m.half),
    ("X", Numeral.ofInt m.epochSeconds),
    ("x", Numeral.ofInt (m.epochSeconds * 1000000 + m.microsecond)),
    ("E", padded 1 (m.weekday + 1)), ("Q", padded 1 ((m.month + 2) / 3)),
    ("dddd", m.weekdayName), ("ddd", m.weekdayName.take 3), ("d", padded 1 m.weekday)]

/-- The sign or nothing between brackets, which stands for itself: its text and what is
behind it. -/
def bracketed? (m : Moment) (cs : List Char) : Option (List Char × List Char) :=
  let inner := cs.takeWhile (· != ']')
  if inner.length < cs.length ∧
      (inner = [] ∨ inner = "!UTC".toList ∨ m.signs.any fun s => s.1.toList == inner) then
    some (inner, cs.drop (inner.length + 1))
  else none

/-- The sign at the start of a notation: its text and what is behind it. -/
def sign? (m : Moment) (cs : List Char) : Option (List Char × List Char) :=
  m.signs.findSome? fun (sign, text) =>
    if sign.toList.isPrefixOf cs then some (text, cs.drop sign.length) else none

/-- The text for a notation of letters; `fuel` bounds its length. -/
def writeSignsFrom (m : Moment) : Nat → List Char → List Char
  | fuel + 1, c :: rest =>
    match if c = '[' then m.bracketed? rest else m.sign? (c :: rest) with
    | some (text, rest) => text ++ writeSignsFrom m fuel rest
    | none => c :: writeSignsFrom m fuel rest
  | _, _ => []

/-- **The text for a notation of letters.** -/
def writeSigns (m : Moment) (cs : List Char) : List Char :=
  m.writeSignsFrom cs.length cs

/-- Whether a notation asks for parts of a second that are not kept. -/
def isTooFine (cs : List Char) : Bool :=
  (cs.splitBy (· == ·)).any fun run => run.head? == some 'S' && 6 < run.length

end SourceDrift.Moment
