/-
Numbers that are written and read as integers.

The decimal digits of a number are an integer as people write them: they need none of the freedom
that is allowed, no sign, no zeros in front, no underscores. So what has been shown can be given
back, unless it has too many digits.
-/
import Mathlib.Data.List.TakeWhile
import SourceDrift.Proofs.Text.Numeral
import SourceDrift.Text.IntegerText

set_option autoImplicit false

namespace SourceDrift.IntegerText

open Numeral

variable {k : Nat}

/-- The digits of a number are a plain integer. -/
theorem plainValue_digits (hk : (digits k).length ≤ maxDigits) : plainValue (digits k) = .ok k := by
  have hvalue := value_digits k
  have hhead : k ≠ 0 → (digits k).head? ≠ some '0' := head_digits_ne_zero
  have hall : ∀ c ∈ digits k, isDigit c = true := fun c => isDigit_of_mem_digits
  cases hds : digits k with
  | nil => exact absurd hds (digits_ne_nil k)
  | cons d ds =>
    rw [hds] at hvalue hhead hall hk
    have htake : (d :: ds).takeWhile isDigit = d :: ds := List.takeWhile_eq_self_iff.2 hall
    have hsign : d ≠ '-' := by
      rintro rfl
      exact absurd (hall '-' List.mem_cons_self) (by decide)
    -- Nothing that makes a text of digits no integer is met: no sign, no leading zero, not too
    -- long.
    have hzero : ¬(d = '0' ∧ (!ds.isEmpty) = true) := by
      rintro ⟨rfl, hmore⟩
      by_cases hk0 : k = 0
      · rw [hk0, digits_zero] at hds
        cases hds
        cases hmore
      · exact hhead hk0 rfl
    unfold plainValue
    split
    next negative unsigned hsplit =>
      have hplain : (negative, unsigned) = (false, d :: ds) := by
        rw [← hsplit]
        split
        · next heq => exact absurd (List.cons.inj heq).1 hsign
        · rfl
      cases hplain
      rw [htake]
      dsimp only
      rw [if_neg hzero, if_neg (show ¬maxDigits < ds.length + 1 from Nat.not_lt.2 hk),
        if_neg (by simp), hvalue]
      rfl

theorem toList_toString (k : Nat) : (toString k).toList = digits k := by
  show (Nat.repr k).toList = _
  rw [Nat.repr]
  exact String.toList_ofList

/-- **A number that is written out is read back.** -/
theorem read_toString (hk : isShowable k = true) : read (toString k) = .ok k := by
  have hlength : (digits k).length ≤ maxDigits := by simpa [isShowable] using hk
  rw [read, toList_toString, plainValue_digits hlength]

end SourceDrift.IntegerText
