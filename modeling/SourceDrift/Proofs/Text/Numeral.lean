/-
Digits and the numbers they denote.

`digits` and `value` are inverse to each other, and what `digits` writes is a run of
digits that starts with a zero only if it is nothing else. These are the facts that a
reader of numbers needs: how far a run goes, and what it is worth.
-/
import SourceDrift.Text.Numeral

set_option autoImplicit false

namespace SourceDrift.Numeral

/-! ## Decimal digits -/

theorem value_digits (n : Nat) : value (digits n) = n :=
  Nat.ofDigitChars_ten_toDigits

theorem value_append (cs ds : List Char) :
    value (cs ++ ds) = Nat.pow 10 ds.length * value cs + value ds := by
  have h : value (cs ++ ds) = Nat.ofDigitChars 10 ds (value cs) :=
    Nat.ofDigitChars_append 0
  rw [h, Nat.ofDigitChars_eq_ofDigitChars_zero]
  rfl

theorem value_zeros (n : Nat) : value (List.replicate n '0') = 0 := by
  have h : value (List.replicate n '0') = 10 ^ n * 0 := Nat.ofDigitChars_replicate_zero
  rw [h, Nat.mul_zero]

theorem digits_ne_nil (n : Nat) : digits n ≠ [] :=
  Nat.toDigits_ne_nil

theorem isDigit_iff (c : Char) : isDigit c = true ↔ c.isDigit = true := by
  simp only [isDigit, Char.isDigit, Bool.and_eq_true, decide_eq_true_eq, Char.le_def]

theorem isDigit_of_mem_digits {n : Nat} {c : Char} (hc : c ∈ digits n) : isDigit c = true :=
  (isDigit_iff c).2 (Nat.isDigit_of_mem_toDigits (by decide) (by decide) hc)

/-- Only zero itself is written with a zero in front. -/
theorem head_digits_ne_zero {n : Nat} (hn : n ≠ 0) : (digits n).head? ≠ some '0' := by
  induction n using Nat.strongRecOn with
  | ind n ih =>
    rw [digits, Nat.toDigits_eq_if (by decide)]
    by_cases hlt : n < 10
    · rw [if_pos hlt, List.head?_cons]
      intro h
      have hzero : n.digitChar = '0' := Option.some.inj h
      have hval := Nat.toNat_digitChar_of_lt_ten hlt
      rw [hzero] at hval
      have h48 : ('0' : Char).toNat = 48 := rfl
      omega
    · have hrest := ih (n / 10) (by omega) (by omega)
      rw [if_neg hlt, List.head?_append]
      cases hds : Nat.toDigits 10 (n / 10) with
      | nil => exact absurd hds Nat.toDigits_ne_nil
      | cons d ds => rwa [digits, hds] at hrest

theorem digits_zero : digits 0 = ['0'] := rfl

/-! ## Hexadecimal digits -/

theorem hexValue_hexDigit : ∀ n < 16, hexValue? (hexDigit n) = some n := by
  decide

/-- What holds of the sixteen digits holds of all that is written with them. -/
theorem forall_mem_hexDigits {P : Char → Prop} (hdigit : ∀ n < 16, P (hexDigit n))
    (width n : Nat) : ∀ c ∈ hexDigits width n, P c := by
  induction width generalizing n with
  | zero => exact fun c hc => absurd hc List.not_mem_nil
  | succ width ih =>
    intro c hc
    rw [hexDigits, List.mem_append] at hc
    rcases hc with hc | hc
    · exact ih _ c hc
    · rw [List.mem_singleton.1 hc]
      exact hdigit _ (Nat.mod_lt n (by decide))

end SourceDrift.Numeral
