/-
Kinds of the values that the fields of a log's name can reach.

A kind has a name in a home, descends from other kinds, and may have a description.
Messages name a kind with its home or without it.
-/

set_option autoImplicit false

namespace SourceDrift.LogName

/-- A kind of values. -/
structure Kind where
  home : String
  name : String
  /-- Whether messages leave out the home. -/
  isShort : Bool
  deriving DecidableEq

namespace Kind

/-- A kind that needs no home. -/
def plain (name : String) : Kind := ⟨"builtins", name, true⟩

/-- The kind of the time that stands for a field. -/
def stamp : Kind := ⟨"loguru._file_sink", "FileDateFormatter", true⟩

/-- The kind of the moment at which a log is named. -/
def now : Kind := ⟨"loguru._datetime", "datetime", true⟩

/-- The kind of moments without a zone. -/
def moment : Kind := ⟨"datetime", "datetime", false⟩

/-- The kind of dates. -/
def date : Kind := ⟨"datetime", "date", false⟩

/-- The kind of spans of time. -/
def span : Kind := ⟨"datetime", "timedelta", false⟩

/-- The kind of zones with a fixed offset. -/
def zone : Kind := ⟨"datetime", "timezone", false⟩

/-- The kind of all zones. -/
def anyZone : Kind := ⟨"datetime", "tzinfo", false⟩

/-- The kind of everything. -/
def anything : Kind := plain "object"

/-- The kind of kinds. -/
def ofKinds : Kind := plain "type"

/-- The name of a kind in messages. -/
def tag (k : Kind) : String :=
  if k.isShort then k.name else k.home ++ "." ++ k.name

/-- A kind as text. -/
def shown (k : Kind) : String :=
  "<class '" ++ (if k.home = "builtins" then "" else k.home ++ ".") ++ k.name ++ "'>"

/-- The kinds that a kind descends from, the nearest first. -/
def ancestors (k : Kind) : List Kind :=
  if k = anything then []
  else if k = now then [moment, date, anything]
  else if k = moment then [date, anything]
  else if k = zone then [anyZone, anything]
  else [anything]

/-- The description of a kind, if it has one that is known here. -/
def description? (k : Kind) : Option String :=
  if k = moment then
    some ("datetime(year, month, day[, hour[, minute[, second[, microsecond[,tzinfo]]]]])\n\n" ++
      "The year, month and day arguments are required. tzinfo may be None, or an\n" ++
      "instance of a tzinfo subclass. The remaining arguments may be ints.\n")
  else if k = date then some "date(year, month, day) --> date object"
  else if k = span then
    some ("Difference between two datetime values.\n\n" ++
      "timedelta(days=0, seconds=0, microseconds=0, milliseconds=0, minutes=0, hours=0, " ++
      "weeks=0)\n\nAll arguments are optional and default to 0.\n" ++
      "Arguments may be integers or floats, and may be positive or negative.")
  else if k = zone then some "Fixed offset from UTC implementation of tzinfo."
  else if k = anyZone then some "Abstract base class for time zone info objects."
  else if k = anything then
    some ("The base class of the class hierarchy.\n\n" ++
      "When called, it accepts no arguments and returns a new featureless\n" ++
      "instance that has no instance attributes and cannot be given any.\n")
  else if k = ofKinds then
    some "type(object) -> the object's type\ntype(name, bases, dict, **kwds) -> a new type"
  else if k = plain "int" then
    some ("int([x]) -> integer\nint(x, base=10) -> integer\n\n" ++
      "Convert a number or string to an integer, or return 0 if no arguments\n" ++
      "are given.  If x is a number, return x.__int__().  For floating point\n" ++
      "numbers, this truncates towards zero.\n\n" ++
      "If x is not a number or if base is given, then x must be a string,\n" ++
      "bytes, or bytearray instance representing an integer literal in the\n" ++
      "given base.  The literal can be preceded by '+' or '-' and be surrounded\n" ++
      "by whitespace.  The base defaults to 10.  Valid bases are 0 and 2-36.\n" ++
      "Base 0 means to interpret the base from the string as an integer literal.\n" ++
      ">>> int('0b100', base=0)\n4")
  else if k = plain "str" then
    some ("str(object='') -> str\nstr(bytes_or_buffer[, encoding[, errors]]) -> str\n\n" ++
      "Create a new string object from the given object. If encoding or\n" ++
      "errors is specified, then the object must expose a data buffer\n" ++
      "that will be decoded using the given encoding and error handler.\n" ++
      "Otherwise, returns the result of object.__str__() (if defined)\nor repr(object).\n" ++
      "encoding defaults to sys.getdefaultencoding().\nerrors defaults to 'strict'.")
  else if k = plain "tuple" then
    some ("Built-in immutable sequence.\n\n" ++
      "If no argument is given, the constructor returns an empty tuple.\n" ++
      "If iterable is specified the tuple is initialized from iterable's items.\n\n" ++
      "If the argument is a tuple, the return value is the same object.")
  else none

/-! ## Members -/

/-- Names of members by the kind that brings them. -/
abbrev Members := List (Kind × List String)

/-- The kind that brings a member. -/
def Members.owner? (members : Members) (name : String) : Option Kind :=
  (members.find? fun (_, names) => names.contains name).map (·.1)

/-- The parts that each value of a kind has of its own. -/
def parts (k : Kind) : Members :=
  let ofDate := (date, ["year", "month", "day"])
  if k = now ∨ k = moment then
    [ofDate, (moment, ["hour", "minute", "second", "microsecond", "tzinfo", "fold"])]
  else if k = date then [ofDate]
  else if k = span then [(span, ["days", "seconds", "microseconds"])]
  else if k = plain "int" then [(k, ["real", "imag", "numerator", "denominator"])]
  else []

/-- The actions of the values of a kind, except those that every value has and those for
operators. -/
def actions (k : Kind) : Members :=
  if k = now ∨ k = moment then
    [(date, ["isocalendar", "isoweekday", "strftime", "toordinal", "weekday"]),
      (moment,
        ["astimezone", "ctime", "date", "dst", "isoformat", "replace", "time", "timestamp",
          "timetuple", "timetz", "tzname", "utcoffset", "utctimetuple"])]
  else if k = date then
    [(date,
      ["ctime", "isocalendar", "isoformat", "isoweekday", "replace", "strftime", "timetuple",
        "toordinal", "weekday"])]
  else if k = span then [(span, ["total_seconds"])]
  else if k = zone ∨ k = anyZone then [(k, ["dst", "fromutc", "tzname", "utcoffset"])]
  else if k = plain "int" then
    [(k, ["as_integer_ratio", "bit_count", "bit_length", "conjugate", "to_bytes"])]
  else if k = plain "str" then
    [(k,
      ["capitalize", "casefold", "center", "count", "encode", "endswith", "expandtabs", "find",
        "format", "format_map", "index", "isalnum", "isalpha", "isascii", "isdecimal", "isdigit",
        "isidentifier", "islower", "isnumeric", "isprintable", "isspace", "istitle", "isupper",
        "join", "ljust", "lower", "lstrip", "partition", "removeprefix", "removesuffix",
        "replace", "rfind", "rindex", "rjust", "rpartition", "rsplit", "rstrip", "split",
        "splitlines", "startswith", "strip", "swapcase", "title", "translate", "upper",
        "zfill"])]
  else if k = plain "tuple" then [(k, ["count", "index"])]
  else []

/-- The actions of a kind itself, which its values share. -/
def ownActions (k : Kind) : List String :=
  ["__init_subclass__", "__new__", "__subclasshook__"] ++
    if k = now ∨ k = moment then
      ["combine", "fromisocalendar", "fromisoformat", "fromordinal", "fromtimestamp", "now",
        "strptime", "today", "utcfromtimestamp", "utcnow"]
    else if k = date then
      ["fromisocalendar", "fromisoformat", "fromordinal", "fromtimestamp", "today"]
    else if k = plain "int" then ["from_bytes"]
    else if k = plain "str" then ["maketrans"]
    else []

/-- The actions that the time and the moment bring themselves. -/
def newActions (k : Kind) : List String :=
  if k = stamp then ["__init__", "__format__"]
  else if k = now then ["__format__"]
  else []

/-- The actions that every value has in a place kept for them. -/
def fixedActions : List String :=
  ["__delattr__", "__eq__", "__ge__", "__getattribute__", "__gt__", "__hash__", "__init__",
    "__le__", "__lt__", "__ne__", "__repr__", "__setattr__", "__str__"]

/-- The kind that brings an action for which a place is kept. -/
def fixedOwner (k : Kind) (name : String) : Kind :=
  if k = stamp ∨ ["__delattr__", "__init__", "__setattr__"].contains name then anything
  else if k = now then moment
  else k

/-- The other actions that every value has. -/
def sharedActions : List String :=
  ["__dir__", "__format__", "__getstate__", "__reduce__", "__reduce_ex__", "__sizeof__"]

end Kind
end SourceDrift.LogName
