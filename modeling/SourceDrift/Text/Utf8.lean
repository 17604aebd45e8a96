/-
Text as UTF-8.

Bytes are read one at a time by a machine that is either between characters or
owes some tail bytes. What it reads is cut into pieces: a character, or a fault
that covers the bytes of a sequence that could not be completed. A byte that
breaks a sequence off is no part of the fault; it starts over. Strict decoding
answers the first fault, lossy decoding puts one replacement character in the
place of each.
-/
import SourceDrift.Text.Numeral

set_option autoImplicit false

namespace SourceDrift.Utf8

/-! ## Encoding -/

/-- The bytes of a character. -/
def encodeChar (c : Char) : List UInt8 :=
  let n := c.toNat
  if n < 0x80 then [n.toUInt8]
  else if n < 0x800 then [(0xC0 + n / 0x40).toUInt8, (0x80 + n % 0x40).toUInt8]
  else if n < 0x10000 then
    [(0xE0 + n / 0x1000).toUInt8, (0x80 + n / 0x40 % 0x40).toUInt8, (0x80 + n % 0x40).toUInt8]
  else
    [(0xF0 + n / 0x40000).toUInt8, (0x80 + n / 0x1000 % 0x40).toUInt8,
      (0x80 + n / 0x40 % 0x40).toUInt8, (0x80 + n % 0x40).toUInt8]

/-- The bytes of a text. -/
def encode (s : String) : List UInt8 :=
  s.toList.flatMap encodeChar

/-! ## Decoding -/

/-- Why bytes are no character. -/
inductive Reason where
  | invalidStart
  | invalidContinuation
  | unexpectedEnd
  deriving DecidableEq

namespace Reason

/-- The words for a reason. -/
def message : Reason → String
  | invalidStart => "invalid start byte"
  | invalidContinuation => "invalid continuation byte"
  | unexpectedEnd => "unexpected end of data"

end Reason

/-- Bytes that are no character: the position of the first, their number, and the
first byte itself. -/
structure Fault where
  reason : Reason
  position : Nat
  count : Nat
  first : Nat
  deriving DecidableEq

namespace Fault

/-- The words for a fault. -/
def message (f : Fault) : String :=
  let place :=
    if f.count = 1 then
      "byte 0x" ++ String.ofList (Numeral.hexDigits 2 f.first) ++ s!" in position {f.position}"
    else s!"bytes in position {f.position}-{f.position + f.count - 1}"
  "'utf-8' codec can't decode " ++ place ++ ": " ++ f.reason.message

end Fault

/-- A character or a fault. -/
inductive Piece where
  | char (c : Char)
  | fault (f : Fault)
  deriving DecidableEq

/-- A sequence that still owes tail bytes, the next of them within bounds. -/
structure Pending where
  owed : Nat
  low : Nat
  high : Nat
  code : Nat
  seen : Nat
  first : Nat
  deriving DecidableEq

/-- What a byte between two characters does: it is a character, or it opens a
sequence, or it is a fault. The bounds on the second byte rule out overlong
forms, surrogates and code points past the last. -/
def start (position b : Nat) : List Piece × Option Pending :=
  if b < 0x80 then ([.char (Char.ofNat b)], none)
  -- 0xC0 and 0xC1 could only start an overlong form.
  else if b < 0xC2 then ([.fault ⟨.invalidStart, position, 1, b⟩], none)
  else if b < 0xE0 then ([], some ⟨1, 0x80, 0xBF, b - 0xC0, 1, b⟩)
  else if b < 0xF0 then
    ([], some ⟨2, if b = 0xE0 then 0xA0 else 0x80, if b = 0xED then 0x9F else 0xBF,
      b - 0xE0, 1, b⟩)
  else if b < 0xF5 then
    ([], some ⟨3, if b = 0xF0 then 0x90 else 0x80, if b = 0xF4 then 0x8F else 0xBF,
      b - 0xF0, 1, b⟩)
  else ([.fault ⟨.invalidStart, position, 1, b⟩], none)

/-- The fault of a sequence that is broken off before a position. -/
def broken (reason : Reason) (position : Nat) (p : Pending) : Piece :=
  .fault ⟨reason, position - p.seen, p.seen, p.first⟩

/-- What a byte does. -/
def step (position : Nat) (state : Option Pending) (b : Nat) : List Piece × Option Pending :=
  match state with
  | none => start position b
  | some p =>
    if p.low ≤ b ∧ b ≤ p.high then
      let code := p.code * 0x40 + (b - 0x80)
      if p.owed = 1 then ([.char (Char.ofNat code)], none)
      else ([], some ⟨p.owed - 1, 0x80, 0xBF, code, p.seen + 1, p.first⟩)
    else
      let (pieces, next) := start position b
      (broken .invalidContinuation position p :: pieces, next)

/-- The pieces of bytes that start at a position. -/
def scan (position : Nat) : Option Pending → List UInt8 → List Piece
  | none, [] => []
  | some p, [] => [broken .unexpectedEnd position p]
  | state, b :: rest =>
    let (pieces, next) := step position state b.toNat
    pieces ++ scan (position + 1) next rest

/-- The characters of pieces without a fault, or the first fault. -/
def charsOf : List Piece → Except Fault (List Char)
  | [] => .ok []
  | .fault f :: _ => .error f
  | .char c :: rest =>
    match charsOf rest with
    | .ok cs => .ok (c :: cs)
    | .error f => .error f

/-- **The text of bytes**, or the first fault. -/
def decode (bytes : List UInt8) : Except Fault (List Char) :=
  charsOf (scan 0 none bytes)

/-- The character that stands for a piece in lossy decoding. -/
def lossyChar : Piece → Char
  | .char c => c
  | .fault _ => '\uFFFD'

/-- The text of bytes, with a replacement character for each fault. -/
def decodeLossy (bytes : List UInt8) : List Char :=
  (scan 0 none bytes).map lossyChar

/-! ## Line ends -/

/-- The text with every kind of line end, `\r\n`, `\r` and `\n`, turned into `\n`. -/
def unifyLineEnds : List Char → List Char
  | [] => []
  | '\r' :: '\n' :: rest => '\n' :: unifyLineEnds rest
  | c :: rest => (if c = '\r' then '\n' else c) :: unifyLineEnds rest

/-- The text of a text file: decoded, its line ends unified. -/
def decodeText (bytes : List UInt8) : Except Fault String :=
  (decode bytes).map fun cs => String.ofList (unifyLineEnds cs)

end SourceDrift.Utf8
