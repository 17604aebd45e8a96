/-
Text as values.

The reader works on what is left of the text and answers a value together with
the rest. A fault carries the number of characters that were left where it
stands, and only `position` turns that into an offset, so no reading function
counts characters. Fuel bounds the recursion; each level of nesting and each item
reads at least one character and spends at most two units of fuel, so twice the
length of the text is enough.

A value that is opened inside of others takes room from those who call the reader,
and they have only so much: `room` is the number of levels that are left, and the
bracket or brace that finds none ends the reading, whatever stands behind it.

Beside the standard grammar the words `NaN`, `Infinity` and `-Infinity` are
numbers. A key that is given twice has its last value at its first place.
-/
import SourceDrift.Json.Writer

set_option autoImplicit false

namespace SourceDrift.Json

/-- What is wrong with a text. -/
inductive Problem where
  | value
  | propertyName
  | colon
  | comma
  | unterminatedString
  | controlCharacter
  | escape
  | unicodeEscape
  | extraData
  | byteOrderMark
  | tooLong (number : Numeral.TooLong)
  /-- A list or an object lies deeper than there is room for. -/
  | tooNested (inObject : Bool)
  deriving DecidableEq

namespace Problem

/-- The words for a problem. -/
def message : Problem → String
  | value => "Expecting value"
  | propertyName => "Expecting property name enclosed in double quotes"
  | colon => "Expecting ':' delimiter"
  | comma => "Expecting ',' delimiter"
  | unterminatedString => "Unterminated string starting at"
  | controlCharacter => "Invalid control character at"
  | escape => "Invalid \\escape"
  | unicodeEscape => "Invalid \\uXXXX escape"
  | extraData => "Extra data"
  | byteOrderMark => "Unexpected UTF-8 BOM (decode using utf-8-sig)"
  | tooLong number => number.message
  | tooNested inObject =>
    "maximum recursion depth exceeded while decoding a JSON " ++
      (if inObject then "object" else "array") ++ " from a unicode string"

/-- Whether the text is no document at all, rather than one with a number that is
not taken or with more levels than there is room for. -/
def isSyntactic : Problem → Bool
  | tooLong _ => false
  | tooNested _ => false
  | _ => true

/-- Whether the reading was given up for want of room. -/
def isDepth : Problem → Bool
  | tooNested _ => true
  | _ => false

end Problem

namespace Reader

/-- A problem and the number of characters left where it stands. -/
structure Fault where
  problem : Problem
  left : Nat
  deriving DecidableEq

/-- A blank between tokens. -/
def isBlank (c : Char) : Bool :=
  c == ' ' || c == '\t' || c == '\n' || c == '\r'

/-- The text from its first token on. -/
def skipBlanks (cs : List Char) : List Char :=
  cs.dropWhile isBlank

/-! ## Strings -/

/-- A unit that was waiting for its second half and did not get it. No character
is denoted by half a pair, so the replacement character takes its place. -/
def flush : Option Nat → List Char
  | none => []
  | some _ => ['\uFFFD']

/-- What one more unit adds, given the unit that waits: the characters that are
complete now and the unit that waits next. -/
def addUnit (pending : Option Nat) (unit : Nat) : List Char × Option Nat :=
  if Quoted.isLow unit then
    match pending with
    | some high => ([Quoted.joinUnits high unit], none)
    | none => (['\uFFFD'], none)
  else if Quoted.isHigh unit then (flush pending, some unit)
  else (flush pending ++ [Char.ofNat unit], none)

/-- The characters of a string from after its opening quote to its closing one.
`start` is what was left at the opening quote, where an unfinished string is
reported; `pending` is a first half of a pair that waits for its second. A
numeric escape needs a character after it, since a string does not end there. -/
def stringBody (start : Nat) : Option Nat → List Char → Except Fault (List Char × List Char)
  | _, [] => .error ⟨.unterminatedString, start⟩
  | pending, c :: rest =>
    if c = '"' then .ok (flush pending, rest)
    else if c = '\\' then
      match rest with
      | [] => .error ⟨.unterminatedString, start⟩
      | e :: rest =>
        if e = 'u' then
          match rest with
          | a :: b :: c :: d :: rest =>
            -- The letter and the four digits are all that is left.
            if rest.isEmpty then .error ⟨.unicodeEscape, 5⟩
            else
              match Quoted.decodeUnit? a b c d with
              | none => .error ⟨.unicodeEscape, rest.length + 5⟩
              | some unit =>
                match stringBody start (addUnit pending unit).2 rest with
                | .error fault => .error fault
                | .ok (more, rest) => .ok ((addUnit pending unit).1 ++ more, rest)
          | rest => .error ⟨.unicodeEscape, rest.length + 1⟩
        else
          match Quoted.decodeLetter? e with
          | none => .error ⟨.escape, rest.length + 2⟩
          | some x =>
            match stringBody start none rest with
            | .error fault => .error fault
            | .ok (more, rest) => .ok (flush pending ++ x :: more, rest)
    else if c.toNat < 0x20 then .error ⟨.controlCharacter, rest.length + 1⟩
    else
      match stringBody start none rest with
      | .error fault => .error fault
      | .ok (more, rest) => .ok (flush pending ++ c :: more, rest)

/-- Reads a string whose opening quote has been read. -/
def readString (cs : List Char) : Except Fault (String × List Char) :=
  match stringBody (cs.length + 1) none cs with
  | .error fault => .error fault
  | .ok (s, rest) => .ok (String.ofList s, rest)

/-! ## Words and numbers -/

/-- The words that are values. -/
def words : List (List Char × Json) :=
  [("null".toList, .null), ("true".toList, .bool true), ("false".toList, .bool false),
    ("NaN".toList, .float .nan), ("Infinity".toList, .float (.infinite false)),
    ("-Infinity".toList, .float (.infinite true))]

/-- Reads the word at the start of the text. -/
def readWord? (cs : List Char) : Option (Json × List Char) :=
  words.findSome? fun (word, v) =>
    if word.isPrefixOf cs then some (v, cs.drop word.length) else none

/-- Reads the word or number at the start of the text. -/
def readScalar (cs : List Char) : Except Fault (Json × List Char) :=
  match readWord? cs with
  | some found => .ok found
  | none =>
    match Number.read? cs with
    | none => .error ⟨.value, cs.length⟩
    | some (literal, rest) =>
      match literal.value with
      | .ok v => .ok (v, rest)
      | .error number => .error ⟨.tooLong number, cs.length⟩

/-! ## Values -/

/-- The members of an object from the pairs of its text, in order: a key given
again replaces the value that it had. -/
def collect (pairs : List Member) : List Member :=
  pairs.foldl (fun members m => set m.1 m.2 members) []

mutual
/-- Reads the value at the start of the text. -/
def readValue (room : Nat) : Nat → List Char → Except Fault (Json × List Char)
  | 0, cs => .error ⟨.value, cs.length⟩
  | _ + 1, [] => .error ⟨.value, 0⟩
  | fuel + 1, c :: rest =>
    if c = '"' then
      match readString rest with
      | .error fault => .error fault
      | .ok (s, rest) => .ok (.str s, rest)
    else if c = '[' then
      if room = 0 then .error ⟨.tooNested false, rest.length + 1⟩
      else
        match skipBlanks rest with
        | ']' :: rest => .ok (.arr [], rest)
        | rest =>
          match readItems (room - 1) fuel rest with
          | .error fault => .error fault
          | .ok (items, rest) => .ok (.arr items, rest)
    else if c = '\x7b' then
      if room = 0 then .error ⟨.tooNested true, rest.length + 1⟩
      else
        match skipBlanks rest with
        | '\x7d' :: rest => .ok (.obj [], rest)
        | rest =>
          match readMembers (room - 1) fuel rest with
          | .error fault => .error fault
          | .ok (pairs, rest) => .ok (.obj (collect pairs), rest)
    else readScalar (c :: rest)

/-- Reads the items of a list, up to and with its closing bracket. -/
def readItems (room : Nat) : Nat → List Char → Except Fault (List Json × List Char)
  | 0, cs => .error ⟨.value, cs.length⟩
  | fuel + 1, cs =>
    match readValue room fuel cs with
    | .error fault => .error fault
    | .ok (v, rest) =>
      match skipBlanks rest with
      | ']' :: rest => .ok ([v], rest)
      | ',' :: rest =>
        match readItems room fuel (skipBlanks rest) with
        | .error fault => .error fault
        | .ok (items, rest) => .ok (v :: items, rest)
      | rest => .error ⟨.comma, rest.length⟩

/-- Reads the members of an object, up to and with its closing brace. -/
def readMembers (room : Nat) : Nat → List Char → Except Fault (List Member × List Char)
  | 0, cs => .error ⟨.value, cs.length⟩
  | _ + 1, [] => .error ⟨.propertyName, 0⟩
  | fuel + 1, c :: rest =>
    if c = '"' then
      match readString rest with
      | .error fault => .error fault
      | .ok (key, rest) =>
        match skipBlanks rest with
        | ':' :: rest =>
          match readValue room fuel (skipBlanks rest) with
          | .error fault => .error fault
          | .ok (v, rest) =>
            match skipBlanks rest with
            | '\x7d' :: rest => .ok ([(key, v)], rest)
            | ',' :: rest =>
              match readMembers room fuel (skipBlanks rest) with
              | .error fault => .error fault
              | .ok (pairs, rest) => .ok ((key, v) :: pairs, rest)
            | rest => .error ⟨.comma, rest.length⟩
        | rest => .error ⟨.colon, rest.length⟩
    else .error ⟨.propertyName, rest.length + 1⟩
end

/-- Reads a whole text: one value with blanks around it. -/
def readDocument (room : Nat) (cs : List Char) : Except Fault Json :=
  match cs with
  | '\uFEFF' :: _ => .error ⟨.byteOrderMark, cs.length⟩
  | _ =>
    -- The mark is looked for before any blank is skipped.
    match readValue room (2 * cs.length + 2) (skipBlanks cs) with
    | .error fault => .error fault
    | .ok (v, rest) =>
      match skipBlanks rest with
      | [] => .ok v
      | rest => .error ⟨.extraData, rest.length⟩

end Reader

/-! ## Faults with their place -/

/-- A problem with the offset of the character it stands at, from 0, and that
character's line and column, from 1. -/
structure ReadError where
  problem : Problem
  line : Nat
  column : Nat
  offset : Nat
  deriving DecidableEq

namespace ReadError

/-- The words for an error. They tell where a text goes wrong, but not where a number
stands that is not taken. -/
def message (e : ReadError) : String :=
  if e.problem.isSyntactic then
    s!"{e.problem.message}: line {e.line} column {e.column} (char {e.offset})"
  else e.problem.message

/-- The error for a fault in a text. -/
def ofFault (cs : List Char) (fault : Reader.Fault) : ReadError :=
  let offset := cs.length - fault.left
  let before := cs.take offset
  ⟨fault.problem, before.count '\n' + 1,
    (before.reverse.takeWhile (· != '\n')).length + 1, offset⟩

end ReadError

/-- Reads a document whose lists and objects lie in at most `room` levels. -/
def read (room : Nat) (text : String) : Except ReadError Json :=
  match Reader.readDocument room text.toList with
  | .ok v => .ok v
  | .error fault => .error (.ofFault text.toList fault)

end SourceDrift.Json
