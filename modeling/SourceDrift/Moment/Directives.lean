/-
Moments in a notation with percent signs.

A directive is a percent sign with a letter behind it that names a part of the date
or the time. Between the two may stand flags, a least width and a variant. What is no
directive stands for itself, and so does a percent sign with something behind it that
names no part.
-/
import SourceDrift.Binary64
import SourceDrift.Moment.Basic

set_option autoImplicit false

namespace SourceDrift.Moment

/-- What a letter stands for. -/
inductive Part where
  /-- A number with a least count of digits, filled up with blanks or with zeros. -/
  | number (digits : Nat) (blanks : Bool) (n : Nat)
  /-- Text that the flags raise to capitals; the flag for the other case lowers text that
  is in capitals as it is. -/
  | words (text : List Char)
  /-- Text that has one form. -/
  | mark (text : List Char)
  /-- A notation of its own. -/
  | layout (text : String)
  /-- Nothing, whatever the width. -/
  | absent

/-- The part that a letter names, if it names one. -/
def part? (m : Moment) (letter : Char) : Option Part :=
  match letter with
  | 'a' => some (.words (m.weekdayName.take 3))
  | 'A' => some (.words m.weekdayName)
  | 'b' => some (.words (m.monthName.take 3))
  | 'h' => some (.words (m.monthName.take 3))
  | 'B' => some (.words m.monthName)
  | 'p' => some (.words m.half)
  | 'P' => some (.mark (m.half.map Char.toLower))
  | 'C' => some (.number 1 false (m.year / 100))
  | 'd' => some (.number 2 false m.day)
  | 'e' => some (.number 2 true m.day)
  | 'g' => some (.number 2 false (m.weekDate.1 % 100))
  | 'G' => some (.number 1 false m.weekDate.1)
  | 'H' => some (.number 2 false m.hour)
  | 'I' => some (.number 2 false m.clockHour)
  | 'j' => some (.number 3 false m.dayOfYear)
  | 'k' => some (.number 2 true m.hour)
  | 'l' => some (.number 2 true m.clockHour)
  | 'm' => some (.number 2 false m.month)
  | 'M' => some (.number 2 false m.minute)
  | 's' => some (.mark (Numeral.ofInt m.epochSeconds))
  | 'S' => some (.number 2 false m.second)
  | 'u' => some (.number 1 false (m.weekday + 1))
  | 'U' => some (.number 2 false m.sundayWeek)
  | 'V' => some (.number 2 false m.weekDate.2)
  | 'w' => some (.number 1 false ((m.weekday + 1) % 7))
  | 'W' => some (.number 2 false m.mondayWeek)
  | 'y' => some (.number 2 false (m.year % 100))
  | 'Y' => some (.number 1 false m.year)
  | 'c' => some (.layout "%a %b %e %H:%M:%S %Y")
  | 'D' => some (.layout "%m/%d/%y")
  | 'F' => some (.layout "%Y-%m-%d")
  | 'r' => some (.layout "%I:%M:%S %p")
  | 'R' => some (.layout "%H:%M")
  | 'T' => some (.layout "%H:%M:%S")
  | 'x' => some (.layout "%m/%d/%y")
  | 'X' => some (.layout "%H:%M:%S")
  | 'n' => some (.mark ['\n'])
  | 't' => some (.mark ['\t'])
  | 'Z' => some (.mark [])
  | 'z' => some .absent
  | '%' => some (.mark ['%'])
  | _ => none

/-- Whether a letter may have a variant. No part is written differently for it. -/
def allowsVariant (variant letter : Char) : Bool :=
  if variant = 'E' then "cCxXyYnNtpPrRsTuzZ%".toList.contains letter
  else !"aAcDFxXY".toList.contains letter

/-- A directive: the flag that says how to fill up, whether the flags for capitals and
for the other case are there, the least width, the variant and the letter. -/
structure Directive where
  filling : Option Char
  capitals : Bool
  otherCase : Bool
  width : Nat
  variant : Option Char
  letter : Option Char

/-- Whether a character is a flag. -/
def isFlag (c : Char) : Bool :=
  "_-0^#".toList.contains c

/-- Whether a character is a flag that says how to fill up. -/
def isFilling (c : Char) : Bool :=
  "_-0".toList.contains c

/-- Reads a directive behind its percent sign: the directive and the number of its
characters. A width above `limit` counts as `limit`. -/
def readDirective (limit : Nat) (cs : List Char) : Directive × Nat :=
  let flags := cs.takeWhile isFlag
  let behindFlags := cs.drop flags.length
  let width := behindFlags.takeWhile Numeral.isDigit
  let behindWidth := behindFlags.drop width.length
  let variant := behindWidth.head?.filter fun c => c == 'E' || c == 'O'
  let letters := behindWidth.drop variant.toList.length
  (⟨flags.reverse.find? isFilling, flags.contains '^', flags.contains '#',
      min limit (Numeral.value width), variant, letters.head?⟩,
    flags.length + width.length + variant.toList.length + letters.head?.toList.length)

namespace Directive

/-- Text filled up from the left to the width. What is empty stays so where there is
nothing to fill up with. -/
def fill (d : Directive) (text : List Char) : List Char :=
  if d.filling = some '-' ∧ text = [] then []
  else List.replicate (d.width - text.length) (if d.filling = some '0' then '0' else ' ') ++ text

/-- Text in capitals, if the flags ask for them. -/
def raise (d : Directive) (text : List Char) : List Char :=
  if d.capitals then text.map Char.toUpper else text

/-- Words in the case that the flags ask for. -/
def inCase (d : Directive) (text : List Char) : List Char :=
  if d.otherCase then
    text.map (if text.all Char.isUpper then Char.toLower else Char.toUpper)
  else d.raise text

/-- A number filled up to its least count of digits and the width. -/
def fillNumber (d : Directive) (digits : Nat) (blanks : Bool) (n : Nat) : List Char :=
  let text := Numeral.digits n
  if d.filling = some '-' then d.fill text
  else
    let isBlank := d.filling = some '_' ∨ (blanks ∧ d.filling ≠ some '0')
    List.replicate (max digits d.width - text.length) (if isBlank then ' ' else '0') ++ text

/-- The part that the directive names, unless the letter may not have the variant. -/
def part? (d : Directive) (m : Moment) : Option Part :=
  match d.letter with
  | none => none
  | some letter => if d.variant.all (allowsVariant · letter) then m.part? letter else none

/-- The text of a directive that names no part, which is the directive itself. A month
counts as words even in a variant that it does not have. -/
def unread (d : Directive) (cs : List Char) : List Char :=
  d.fill (if d.letter.any "bBh".toList.contains then d.inCase cs else d.raise cs)

end Directive

/-- The text for a notation. No width counts for more than `limit`. `depth` bounds how
deep parts that are notations are in one another, and `fuel` the number of characters. -/
def writeDirectives (m : Moment) (limit : Nat) : Nat → Nat → List Char → List Char
  | depth, fuel + 1, c :: rest =>
    if c = '%' then
      let (d, length) := readDirective limit rest
      let text :=
        match d.part? m, depth with
        | some (.number digits blanks n), _ => d.fillNumber digits blanks n
        | some (.words text), _ => d.fill (d.inCase text)
        | some (.mark text), _ => d.fill text
        | some (.layout text), depth + 1 =>
          d.fill (d.raise (writeDirectives m limit depth text.length text.toList))
        | some (.layout _), 0 => []
        | some .absent, _ => []
        | none, _ => d.unread ('%' :: rest.take length)
      text ++ writeDirectives m limit depth fuel (rest.drop length)
    else c :: writeDirectives m limit depth fuel rest
  | _, _, _ => []

/-- Puts in the zone and the fraction of the second, where a percent sign stands right
before their letters. Without a zone nothing is put in for it. -/
def putZone (m : Moment) (hasZone : Bool) : List Char → List Char
  | '%' :: c :: rest =>
    let text :=
      match c with
      | 'z' => if hasZone then "+0000".toList else []
      | 'Z' => if hasZone then "UTC".toList else []
      | 'f' => padded 6 m.microsecond
      | c => ['%', c]
    text ++ putZone m hasZone rest
  | c :: rest => c :: putZone m hasZone rest
  | [] => []

/-- The length that the text for a notation stays below: 256 times the length of the
notation, or what is the next power of two from there, and no less than 1024. -/
def room (length : Nat) : Nat :=
  if length ≤ 4 then 1024 else 256 * twoTo (Nat.log2 (length - 1) + 1)

/-- **The text for a notation with percent signs.** One that becomes too long is empty. -/
def writePercents (m : Moment) (hasZone : Bool) (cs : List Char) : List Char :=
  let directives := m.putZone hasZone cs
  let limit := room directives.length
  let text := m.writeDirectives limit 1 directives.length directives
  if text.length < limit then text else []

end SourceDrift.Moment
