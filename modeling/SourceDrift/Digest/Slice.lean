/-
The bytes that a source mapping points at, and their digest.

A range may start before the first byte or end past the last. A bound below zero
counts from the end, and what lies outside the file is left out, so every pair of
integers names some bytes of every file.
-/
import SourceDrift.Digest.Md5
import SourceDrift.Finding.Basic

set_option autoImplicit false

namespace SourceDrift.Digest

/-- A bound as an offset into `size` bytes. -/
def bound (size : Nat) (n : Int) : Nat :=
  if n < 0 then (n + size).toNat else min n.toNat size

/-- The bytes from `start` up to `stop`. -/
def slice (bytes : List UInt8) (start stop : Int) : List UInt8 :=
  let low := bound bytes.length start
  let high := bound bytes.length stop
  (bytes.drop low).take (high - low)

/-- The digest of `length` bytes from `start` on. -/
def ofSlice (bytes : List UInt8) (start length : Int) : String :=
  Md5.digest (slice bytes start (start + length))

end SourceDrift.Digest

namespace SourceDrift.SourceMapping

/-- The digest of the bytes that a mapping points at, in a file's content. -/
def digestIn (m : SourceMapping) (bytes : List UInt8) : String :=
  Digest.ofSlice bytes m.start m.length

end SourceDrift.SourceMapping
