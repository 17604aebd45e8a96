/-
Plain text through its bytes.

A plain character is an ASCII one that is no carriage return: one byte, and nothing that a
text file's reader would turn into something else. Such text comes back from its bytes as
it is.
-/
import SourceDrift.Text.Utf8

set_option autoImplicit false

namespace SourceDrift.Utf8

/-- Whether a character is one byte that no reader of text changes. -/
def IsPlain (c : Char) : Prop := c.toNat < 0x80 ∧ c ≠ '\r'

instance (c : Char) : Decidable (IsPlain c) := inferInstanceAs (Decidable (_ ∧ _))

theorem scan_encodeChar {c : Char} (hc : IsPlain c) (position : Nat) (rest : List UInt8) :
    scan position none (encodeChar c ++ rest) = .char c :: scan (position + 1) none rest := by
  have hbyte : (c.toNat.toUInt8).toNat = c.toNat :=
    UInt8.toNat_ofNat_of_lt' (Nat.lt_trans hc.1 (by decide))
  rw [encodeChar, if_pos hc.1]
  show scan position none (c.toNat.toUInt8 :: rest) = _
  rw [scan, step, hbyte, start, if_pos hc.1, Char.ofNat_toNat]
  rfl

theorem charsOf_scan_encode {cs : List Char} (hcs : ∀ c ∈ cs, IsPlain c) (position : Nat) :
    charsOf (scan position none (cs.flatMap encodeChar)) = .ok cs := by
  induction cs generalizing position with
  | nil => rfl
  | cons c rest ih =>
    rw [List.flatMap_cons, scan_encodeChar (hcs c List.mem_cons_self), charsOf,
      ih (fun d hd => hcs d (List.mem_cons_of_mem _ hd))]

theorem unifyLineEnds_eq_self {cs : List Char} (hcs : ∀ c ∈ cs, IsPlain c) :
    unifyLineEnds cs = cs := by
  induction cs with
  | nil => rfl
  | cons c rest ih =>
    have hc : c ≠ '\r' := (hcs c List.mem_cons_self).2
    unfold unifyLineEnds
    split
    · next heq => cases heq
    · next heq => exact absurd (List.cons.inj heq).1 hc
    · next heq =>
      obtain ⟨rfl, rfl⟩ := List.cons.inj heq
      rw [if_neg hc, ih (fun d hd => hcs d (List.mem_cons_of_mem _ hd))]

/-- **Plain text is read as it was written.** -/
theorem decodeText_encode {s : String} (hs : ∀ c ∈ s.toList, IsPlain c) :
    decodeText (encode s) = .ok s := by
  rw [decodeText, decode, encode, charsOf_scan_encode hs]
  show Except.ok (String.ofList (unifyLineEnds s.toList)) = _
  rw [unifyLineEnds_eq_self hs, String.ofList_toList]

end SourceDrift.Utf8
