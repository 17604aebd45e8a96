/-
The quoted form of text.

Everything outside the visible ASCII characters and the space is written as an
escape, so a written document is ASCII whatever its strings hold. Characters above
`U+FFFF` are written as two escapes, one for each of their UTF-16 units.
-/
import SourceDrift.Text.Numeral

set_option autoImplicit false

namespace SourceDrift.Json.Quoted

/-- The escape of one UTF-16 unit. -/
def escapeUnit (unit : Nat) : List Char :=
  '\\' :: 'u' :: Numeral.hexDigits 4 unit

/-- The first UTF-16 unit of a character above `U+FFFF`. -/
def highUnit (code : Nat) : Nat :=
  0xD800 + (code - 0x10000) / 0x400

/-- The second UTF-16 unit of a character above `U+FFFF`. -/
def lowUnit (code : Nat) : Nat :=
  0xDC00 + (code - 0x10000) % 0x400

/-- The written form of one character inside quotes. -/
def encodeChar (c : Char) : List Char :=
  if c = '"' then ['\\', '"']
  else if c = '\\' then ['\\', '\\']
  else if c = '\n' then ['\\', 'n']
  else if c = '\r' then ['\\', 'r']
  else if c = '\t' then ['\\', 't']
  else if c = '\x08' then ['\\', 'b']
  else if c = '\x0c' then ['\\', 'f']
  else if c.toNat < 0x20 then escapeUnit c.toNat
  else if c.toNat < 0x7F then [c]
  else if c.toNat < 0x10000 then escapeUnit c.toNat
  else escapeUnit (highUnit c.toNat) ++ escapeUnit (lowUnit c.toNat)

/-- The written form of characters inside quotes. -/
def encode : List Char → List Char
  | [] => []
  | c :: rest => encodeChar c ++ encode rest

/-- The written form of text, quotes included. -/
def quote (s : String) : List Char :=
  '"' :: encode s.toList ++ ['"']

/-- The character that a one-letter escape stands for. -/
def decodeLetter? (c : Char) : Option Char :=
  if c = '"' then some '"'
  else if c = '\\' then some '\\'
  else if c = '/' then some '/'
  else if c = 'b' then some '\x08'
  else if c = 'f' then some '\x0c'
  else if c = 'n' then some '\n'
  else if c = 'r' then some '\r'
  else if c = 't' then some '\t'
  else none

/-- The UTF-16 unit that four hexadecimal digits stand for. -/
def decodeUnit? (a b c d : Char) : Option Nat := do
  let a ← Numeral.hexValue? a
  let b ← Numeral.hexValue? b
  let c ← Numeral.hexValue? c
  let d ← Numeral.hexValue? d
  some (((a * 16 + b) * 16 + c) * 16 + d)

/-- Whether a unit opens a pair. -/
def isHigh (unit : Nat) : Bool :=
  decide (0xD800 ≤ unit) && decide (unit < 0xDC00)

/-- Whether a unit closes a pair. -/
def isLow (unit : Nat) : Bool :=
  decide (0xDC00 ≤ unit) && decide (unit < 0xE000)

/-- The character of a pair of units. -/
def joinUnits (high low : Nat) : Char :=
  Char.ofNat (0x10000 + (high - 0xD800) * 0x400 + (low - 0xDC00))

end SourceDrift.Json.Quoted
