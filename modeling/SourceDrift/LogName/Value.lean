/-
Values that the fields of a log's name can reach.

A field stands for the time. From there its parts lead to the moment, to numbers,
spans and zones, and to the kinds of all these. Every value has a text and a shown
form, and where it has no text of its own the shown form is its text.
-/
import SourceDrift.LogName.Kind
import SourceDrift.Moment.Basic
import SourceDrift.Text.Shown

set_option autoImplicit false

namespace SourceDrift.LogName

/-- What a field stands for. -/
inductive Value where
  /-- The time at which the log is named. -/
  | stamp
  /-- The moment of that time. -/
  | now
  /-- A moment without a zone. -/
  | moment (m : Moment)
  /-- A span of time in microseconds. -/
  | span (microseconds : Int)
  /-- A zone by its text and its shown form. -/
  | zone (name shown : String)
  | number (n : Int)
  | text (s : String)
  | nothing
  | kind (k : Kind)
  | kinds (ks : List Kind)
  /-- A member of a value or of a kind by the name of its own kind, that of the kind that
  brings it, its name and its shown form. -/
  | member (sort owner name shown : String)
  /-- What is kept with the time or the moment by name. -/
  | kept (names : List String)

namespace Value

/-! ## Particular values -/

/-- The first moment. -/
def firstMoment : Value := .moment ⟨0⟩

/-- The last moment. -/
def lastMoment : Value := .moment ⟨315537897599999999⟩

/-- The microseconds of a day. -/
def dayLength : Int := 86400000000

/-- The shortest span. -/
def leastSpan : Value := .span 1

/-- The longest span back in time. -/
def firstSpan : Value := .span (-999999999 * dayLength)

/-- The longest span. -/
def lastSpan : Value := .span (1000000000 * dayLength - 1)

/-- The zone of universal time by itself. -/
def universalZone : Value := .zone "UTC" "datetime.timezone.utc"

/-- The zone of the moment at which a log is named. -/
def zoneOfNow : Value := .zone "UTC" "datetime.timezone(datetime.timedelta(0), 'UTC')"

/-- The zone that is furthest behind. -/
def firstZone : Value :=
  .zone "UTC-23:59" "datetime.timezone(datetime.timedelta(days=-1, seconds=60))"

/-- The zone that is furthest ahead. -/
def lastZone : Value := .zone "UTC+23:59" "datetime.timezone(datetime.timedelta(seconds=86340))"

/-! ## Kinds -/

/-- The kind of a value. -/
def kindOf : Value → Kind
  | stamp => .stamp
  | now => .now
  | moment _ => .moment
  | span _ => .span
  | zone _ _ => .zone
  | number _ => .plain "int"
  | text _ => .plain "str"
  | nothing => .plain "NoneType"
  | kind _ => .ofKinds
  | kinds _ => .plain "tuple"
  | member sort _ _ _ => .plain sort
  | kept _ => .plain "dict"

/-- A value in a message about its parts. -/
def subject : Value → String
  | kind k => "type object '" ++ k.tag ++ "'"
  | v => "'" ++ v.kindOf.tag ++ "' object"

/-- A value in a message about a part that it does not have. What is made by the time and
the moment themselves passes the question on. -/
def partSubject : Value → String
  | member "method" _ _ _ => "'function' object"
  | v => v.subject

/-! ## Text -/

/-- The days, the seconds of the day and the microseconds of the second of a span. Only
the days can be negative. -/
def spanParts (microseconds : Int) : Int × Nat × Nat :=
  let rest := (microseconds % dayLength).toNat
  (microseconds / dayLength, rest / 1000000, rest % 1000000)

/-- A span as text: the days, if there are any, and the time on a clock. -/
def spanText (microseconds : Int) : String :=
  let (days, seconds, rest) := spanParts microseconds
  let unit := if days = 1 ∨ days = -1 then " day, " else " days, "
  let clock := Moment.padded 1 (seconds / 3600) ++ ':' :: Moment.padded 2 (seconds / 60 % 60) ++
    ':' :: Moment.padded 2 (seconds % 60)
  (if days = 0 then "" else String.ofList (Numeral.ofInt days) ++ unit) ++
    String.ofList (clock ++ if rest = 0 then [] else '.' :: Moment.padded 6 rest)

/-- The shown form of a span, which leaves out what is zero. -/
def spanShown (microseconds : Int) : String :=
  let (days, seconds, rest) := spanParts microseconds
  let part (name : String) (n : Int) : List String :=
    if n = 0 then [] else [name ++ "=" ++ String.ofList (Numeral.ofInt n)]
  let parts := part "days" days ++ part "seconds" seconds ++ part "microseconds" rest
  "datetime.timedelta(" ++ (if parts = [] then "0" else ", ".intercalate parts) ++ ")"

/-- The arguments in the shown form of a moment. Seconds and their fraction are left out
where they are zero and nothing else follows. -/
def momentArguments (m : Moment) : List String :=
  let seconds :=
    if m.microsecond ≠ 0 then [m.second, m.microsecond]
    else if m.second ≠ 0 then [m.second]
    else []
  ([m.year, m.month, m.day, m.hour, m.minute] ++ seconds).map fun n =>
    String.ofList (Numeral.digits n)

/-- Where a value is kept, as a shown form says it. No two runs agree on the number. -/
def keptAt : String := " at 0x7f0000000000"

/-- The shown form of the time. -/
def stampShown : String :=
  "<" ++ Kind.stamp.home ++ "." ++ Kind.stamp.name ++ " object" ++ keptAt ++ ">"

/-- The shown form of kinds in a row. -/
def kindsShown : List Kind → String
  | [k] => "(" ++ k.shown ++ ",)"
  | ks => "(" ++ ", ".intercalate (ks.map Kind.shown) ++ ")"

/-- The shown form of the moment at which a log is named. -/
def nowShown (at_ : Moment) : String :=
  let zone := "tzinfo=datetime.timezone(datetime.timedelta(0), 'UTC')"
  "datetime(" ++ ", ".intercalate (momentArguments at_ ++ [zone]) ++ ")"

/-- The shown form of a value. -/
def shown (at_ : Moment) : Value → String
  | stamp => stampShown
  | now => nowShown at_
  | moment m => "datetime.datetime(" ++ ", ".intercalate (momentArguments m) ++ ")"
  | span microseconds => spanShown microseconds
  | zone _ shown => shown
  | number n => String.ofList (Numeral.ofInt n)
  | text s => String.ofList (Text.shown s)
  | nothing => "None"
  | kind k => k.shown
  | kinds ks => kindsShown ks
  | member _ _ _ shown => shown
  | kept names =>
    let entries := names.map fun name =>
      String.ofList (Text.shown name) ++ ": " ++ nowShown at_
    "\x7b" ++ ", ".intercalate entries ++ "\x7d"

/-- The text of a value, which is its shown form for want of another. -/
def asText (at_ : Moment) : Value → String
  | now => String.ofList (at_.standard ' ') ++ "+00:00"
  | moment m => String.ofList (m.standard ' ')
  | span microseconds => spanText microseconds
  | zone name _ => name
  | text s => s
  | v => v.shown at_

end Value
end SourceDrift.LogName
