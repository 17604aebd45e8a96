/-
The MD5 digest of bytes.

A message is padded to whole blocks of 64 bytes; each block drives 64 steps on a
state of four words. Words and the length at the end are little-endian.
-/
import SourceDrift.Text.Numeral

set_option autoImplicit false

namespace SourceDrift.Md5

/-- The four words that a digest is computed in. -/
structure State where
  a : UInt32
  b : UInt32
  c : UInt32
  d : UInt32
  deriving DecidableEq

namespace State

/-- The state before the first block. -/
def initial : State := ⟨0x67452301, 0xefcdab89, 0x98badcfe, 0x10325476⟩

/-- Two states added word by word. -/
def add (s t : State) : State := ⟨s.a + t.a, s.b + t.b, s.c + t.c, s.d + t.d⟩

end State

/-- The constants of the 64 steps: the integer parts of `2 ^ 32 * |sin (i + 1)|`. -/
def constants : List UInt32 :=
  [0xd76aa478, 0xe8c7b756, 0x242070db, 0xc1bdceee, 0xf57c0faf, 0x4787c62a, 0xa8304613, 0xfd469501,
    0x698098d8, 0x8b44f7af, 0xffff5bb1, 0x895cd7be, 0x6b901122, 0xfd987193, 0xa679438e, 0x49b40821,
    0xf61e2562, 0xc040b340, 0x265e5a51, 0xe9b6c7aa, 0xd62f105d, 0x02441453, 0xd8a1e681, 0xe7d3fbc8,
    0x21e1cde6, 0xc33707d6, 0xf4d50d87, 0x455a14ed, 0xa9e3e905, 0xfcefa3f8, 0x676f02d9, 0x8d2a4c8a,
    0xfffa3942, 0x8771f681, 0x6d9d6122, 0xfde5380c, 0xa4beea44, 0x4bdecfa9, 0xf6bb4b60, 0xbebfbc70,
    0x289b7ec6, 0xeaa127fa, 0xd4ef3085, 0x04881d05, 0xd9d4d039, 0xe6db99e5, 0x1fa27cf8, 0xc4ac5665,
    0xf4292244, 0x432aff97, 0xab9423a7, 0xfc93a039, 0x655b59c3, 0x8f0ccc92, 0xffeff47d, 0x85845dd1,
    0x6fa87e4f, 0xfe2ce6e0, 0xa3014314, 0x4e0811a1, 0xf7537e82, 0xbd3af235, 0x2ad7d2bb, 0xeb86d391]

/-- How far each step rotates. -/
def rotations : List UInt32 :=
  let round (a b c d : UInt32) := List.flatten (List.replicate 4 [a, b, c, d])
  round 7 12 17 22 ++ round 5 9 14 20 ++ round 4 11 16 23 ++ round 6 10 15 21

/-- The word of the block that each step reads. -/
def wordIndex (i : Nat) : Nat :=
  match i / 16 with
  | 0 => i
  | 1 => (5 * i + 1) % 16
  | 2 => (3 * i + 5) % 16
  | _ => 7 * i % 16

/-- The mixing function of a step. -/
def mix (i : Nat) (s : State) : UInt32 :=
  match i / 16 with
  | 0 => (s.b &&& s.c) ||| (~~~s.b &&& s.d)
  | 1 => (s.d &&& s.b) ||| (~~~s.d &&& s.c)
  | 2 => s.b ^^^ s.c ^^^ s.d
  | _ => s.c ^^^ (s.b ||| ~~~s.d)

/-- Rotation to the left, by neither nothing nor all of a word. -/
def rotate (x by_ : UInt32) : UInt32 :=
  (x <<< by_) ||| (x >>> (32 - by_))

/-- One step: the number of the step with its constant and rotation. -/
def step (block : List UInt32) (s : State) (i : Nat × UInt32 × UInt32) : State :=
  let word := block.getD (wordIndex i.1) 0
  let sum := s.a + mix i.1 s + i.2.1 + word
  ⟨s.d, s.b + rotate sum i.2.2, s.b, s.c⟩

/-- The steps in order. -/
def steps : List (Nat × UInt32 × UInt32) :=
  (List.range 64).zip (constants.zip rotations)

/-- The state after a block of sixteen words. -/
def addBlock (s : State) (block : List UInt32) : State :=
  s.add (steps.foldl (step block) s)

/-- A word from bytes, the lowest first. -/
def wordOf (a b c d : UInt8) : UInt32 :=
  a.toUInt32 ||| (b.toUInt32 <<< 8) ||| (c.toUInt32 <<< 16) ||| (d.toUInt32 <<< 24)

/-- The words of bytes; fewer than four bytes at the end make no word. -/
def wordsOf : List UInt8 → List UInt32
  | a :: b :: c :: d :: rest => wordOf a b c d :: wordsOf rest
  | _ => []

/-- The `count` lowest bytes of a number, the lowest first. -/
def littleEndian : Nat → Nat → List UInt8
  | 0, _ => []
  | count + 1, n => n.toUInt8 :: littleEndian count (n / 256)

/-- The message with its padding: a single bit, zeros, and the length in bits. -/
def pad (bytes : List UInt8) : List UInt8 :=
  -- With the mark byte and the eight bytes of the length this fills a block.
  let zeros := (119 - bytes.length % 64) % 64
  bytes ++ 0x80 :: List.replicate zeros 0 ++ littleEndian 8 (8 * bytes.length)

/-- The first `count` blocks of sixteen words. -/
def blocksOf : Nat → List UInt32 → List (List UInt32)
  | 0, _ => []
  | count + 1, words => words.take 16 :: blocksOf count (words.drop 16)

/-- The state after all blocks. -/
def run (bytes : List UInt8) : State :=
  let words := wordsOf (pad bytes)
  (blocksOf (words.length / 16) words).foldl addBlock .initial

/-- The bytes of a word in hexadecimal, the lowest byte first. -/
def hexWord (w : UInt32) : List Char :=
  (littleEndian 4 w.toNat).flatMap fun b => Numeral.hexDigits 2 b.toNat

/-- **The digest of bytes** in hexadecimal. -/
def digest (bytes : List UInt8) : String :=
  let s := run bytes
  String.ofList (hexWord s.a ++ hexWord s.b ++ hexWord s.c ++ hexWord s.d)

end SourceDrift.Md5
