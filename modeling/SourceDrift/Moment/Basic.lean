/-
Moments, and the calendar that dates them.

A moment is counted in microseconds from the beginning of the year 1, and its date
and time of day are those of coordinated universal time in the Gregorian calendar,
which is taken to have held from the start. The first day was a Monday.
-/
import SourceDrift.Text.Numeral

set_option autoImplicit false

namespace SourceDrift

/-- A moment. -/
structure Moment where
  microseconds : Nat
  deriving DecidableEq

namespace Moment

/-! ## Time of day -/

/-- Whole seconds since the beginning of the year 1. -/
def seconds (m : Moment) : Nat := m.microseconds / 1000000

/-- The microsecond of the second. -/
def microsecond (m : Moment) : Nat := m.microseconds % 1000000

/-- The second of the minute. -/
def second (m : Moment) : Nat := m.seconds % 60

/-- The minute of the hour. -/
def minute (m : Moment) : Nat := m.seconds / 60 % 60

/-- The hour of the day. -/
def hour (m : Moment) : Nat := m.seconds / 3600 % 24

/-- The hour on a clock of twelve. -/
def clockHour (m : Moment) : Nat := (m.hour + 11) % 12 + 1

/-- Whole days since the beginning of the year 1. -/
def days (m : Moment) : Nat := m.seconds / 86400

/-- The days from the beginning of the year 1 to that of 1970. -/
def daysToEpoch : Nat := 719162

/-- Whole seconds since the beginning of 1970. -/
def epochSeconds (m : Moment) : Int := (m.seconds : Int) - (daysToEpoch * 86400 : Nat)

/-- The moment some microseconds after the beginning of 1970. -/
def sinceEpoch (microseconds : Nat) : Moment :=
  ⟨daysToEpoch * 86400000000 + microseconds⟩

/-! ## Date -/

/-- The day of the week; Monday is 0. -/
def weekday (m : Moment) : Nat := m.days % 7

/-- The year that began on the last first of March, and the days since then. With the
leap day at its end every such year has the same months. -/
def marchYear (m : Moment) : Nat × Nat :=
  -- The year 1 began 306 days after the first of March; the calendar repeats after 400 years.
  let day := m.days + 306
  let inEra := day % 146097
  let year := (inEra - inEra / 1460 + inEra / 36524 - inEra / 146096) / 365
  (day / 146097 * 400 + year, inEra - (365 * year + year / 4 - year / 100))

/-- The month counted from March. -/
def marchMonth (m : Moment) : Nat := (5 * m.marchYear.2 + 2) / 153

/-- The month of the year. -/
def month (m : Moment) : Nat :=
  if m.marchMonth < 10 then m.marchMonth + 3 else m.marchMonth - 9

/-- The year. -/
def year (m : Moment) : Nat :=
  if m.month ≤ 2 then m.marchYear.1 + 1 else m.marchYear.1

/-- The day of the month. -/
def day (m : Moment) : Nat := m.marchYear.2 - (153 * m.marchMonth + 2) / 5 + 1

/-- Whether a year has a leap day. -/
def isLeapYear (year : Nat) : Bool :=
  year % 4 == 0 && (year % 100 != 0 || year % 400 == 0)

/-- The days of a year. -/
def daysOfYear (year : Nat) : Nat :=
  if isLeapYear year then 366 else 365

/-- The day of the year. -/
def dayOfYear (m : Moment) : Nat :=
  if m.month ≤ 2 then m.marchYear.2 - 305
  else m.marchYear.2 + if isLeapYear m.year then 61 else 60

/-! ## Weeks -/

/-- The week of the year, where weeks begin on Monday and the days before the first
Monday are in week 0. -/
def mondayWeek (m : Moment) : Nat := (m.dayOfYear + 6 - m.weekday) / 7

/-- The week of the year, where weeks begin on Sunday and the days before the first
Sunday are in week 0. -/
def sundayWeek (m : Moment) : Nat := (m.dayOfYear + 6 - (m.weekday + 1) % 7) / 7

/-- The year that the week belongs to, and the number of the week in it. A week that
begins on Monday belongs to the year that has its Thursday. -/
def weekDate (m : Moment) : Nat × Nat :=
  let thursday := m.dayOfYear + 3
  if thursday ≤ m.weekday then
    (m.year - 1, (thursday + daysOfYear (m.year - 1) - m.weekday - 1) / 7 + 1)
  else if daysOfYear m.year < thursday - m.weekday then (m.year + 1, 1)
  else (m.year, (thursday - m.weekday - 1) / 7 + 1)

/-! ## Parts as text -/

/-- A number with zeros in front up to a width. -/
def padded (width n : Nat) : List Char :=
  let digits := Numeral.digits n
  List.replicate (width - digits.length) '0' ++ digits

/-- The names of the days of the week. -/
def weekdayNames : List String :=
  ["Monday", "Tuesday", "Wednesday", "Thursday", "Friday", "Saturday", "Sunday"]

/-- The names of the months. -/
def monthNames : List String :=
  ["January", "February", "March", "April", "May", "June", "July", "August", "September",
    "October", "November", "December"]

/-- The name of the day of the week. -/
def weekdayName (m : Moment) : List Char :=
  (weekdayNames.getD m.weekday "").toList

/-- The name of the month. -/
def monthName (m : Moment) : List Char :=
  (monthNames.getD (m.month - 1) "").toList

/-- The half of the day. -/
def half (m : Moment) : List Char :=
  (if m.hour < 12 then "AM" else "PM").toList

/-- The date and the time of day with a separator between them. The fraction of the
second is left out where it is zero. -/
def standard (separator : Char) (m : Moment) : List Char :=
  padded 4 m.year ++ '-' :: padded 2 m.month ++ '-' :: padded 2 m.day ++ separator ::
    padded 2 m.hour ++ ':' :: padded 2 m.minute ++ ':' :: padded 2 m.second ++
      if m.microsecond = 0 then [] else '.' :: padded 6 m.microsecond

end Moment
end SourceDrift
