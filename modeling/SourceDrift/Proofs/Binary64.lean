/-
The decimal of a rank reads back as the rank.

Two facts make the argument. Rounding looks at a quotient only as a number: widening
numerator and denominator alike changes nothing, and so neither does a zero moved from
the digits of a decimal into its exponent. And the exact decimal of a rank, with which
the search for a short one would end, is a quotient that is the rank's magnitude, which
needs no rounding. Whatever the search answers has been tried; what it might be left
with is exact.

No machine number occurs, and no bound on the digits is needed. The one thing to watch
is that decimals far out are answered without rounding, so that moving zeros about is
only harmless between these limits.
-/
import SourceDrift.Json.Number
import SourceDrift.Proofs.Text.Numeral

set_option autoImplicit false

namespace SourceDrift.Binary64

/-! ## Rounding a quotient -/

theorem twoTo_pos (n : Nat) : 0 < twoTo n := Nat.pow_pos (by decide)

theorem tenTo_pos (n : Nat) : 0 < tenTo n := Nat.pow_pos (by decide)

theorem twoTo_add (m n : Nat) : twoTo (m + n) = twoTo m * twoTo n := Nat.pow_add 2 m n

theorem twoTo_mono {m n : Nat} (h : m ≤ n) : twoTo m ≤ twoTo n := Nat.pow_le_pow_right (by decide) h

theorem tenTo_add (m n : Nat) : tenTo (m + n) = tenTo m * tenTo n := Nat.pow_add 10 m n

/-- A whole quotient is not rounded. -/
theorem roundQuotient_exact (n den : Nat) (hden : 0 < den) : roundQuotient (n * den) den = n := by
  rw [roundQuotient, Nat.mul_mod_left, Nat.mul_div_cancel _ hden, Nat.mul_zero]
  exact if_pos hden

theorem roundQuotient_mul (num den k : Nat) (hk : 0 < k) :
    roundQuotient (num * k) (den * k) = roundQuotient num den := by
  rw [roundQuotient, roundQuotient, Nat.mul_div_mul_right _ _ hk, Nat.mul_mod_mul_right,
    ← Nat.mul_assoc]
  simp only [Nat.mul_lt_mul_right hk]

theorem nearestRank_mul (num den k : Nat) (hk : 0 < k) :
    nearestRank (num * k) (den * k) = nearestRank num den := by
  have hunits : num * k * unitsPerOne = num * unitsPerOne * k := Nat.mul_right_comm ..
  simp only [nearestRank]
  rw [hunits, Nat.mul_div_mul_right _ _ hk, Nat.mul_right_comm den k, roundQuotient_mul _ _ _ hk]

/-- **Rounding looks at a quotient as a number.** -/
theorem nearestRank_congr {a b c d : Nat} (hb : 0 < b) (hd : 0 < d) (h : a * d = c * b) :
    nearestRank a b = nearestRank c d := by
  calc nearestRank a b = nearestRank (a * d) (b * d) := (nearestRank_mul a b d hd).symm
    _ = nearestRank (c * b) (d * b) := by rw [h, Nat.mul_comm b d]
    _ = nearestRank c d := nearestRank_mul c d b hb

/-! ## A rank's own magnitude -/

theorem significand_lt (rank : Nat) : significand rank < twoTo 53 := by
  have htop : twoTo 53 = ranksPerBinade + ranksPerBinade := rfl
  have hmod : rank % ranksPerBinade < ranksPerBinade := Nat.mod_lt _ (by decide)
  unfold significand
  split
  · omega
  · omega

theorem units_lt {rank : Nat} (hrank : rank < finiteRanks) : units rank < twoTo 2098 := by
  have hfield : rank / ranksPerBinade < 2047 :=
    (Nat.div_lt_iff_lt_mul (by decide)).2 hrank
  have hscale : scale rank ≤ 2045 := by rw [scale]; omega
  have hpow : twoTo (scale rank) ≤ twoTo 2045 := twoTo_mono hscale
  have htop : twoTo 2098 = twoTo 53 * twoTo 2045 := twoTo_add 53 2045
  calc units rank < twoTo 53 * twoTo (scale rank) :=
        Nat.mul_lt_mul_of_pos_right (significand_lt rank) (twoTo_pos _)
    _ ≤ twoTo 53 * twoTo 2045 := Nat.mul_le_mul_left _ hpow
    _ = twoTo 2098 := htop.symm

theorem units_pos {rank : Nat} (hrank : rank ≠ 0) : 0 < units rank := by
  refine Nat.mul_pos ?_ (twoTo_pos _)
  unfold significand
  split
  · omega
  · exact Nat.add_pos_left (by decide) _

/-- The exponent of a rank's magnitude, beyond the 53 bits of its significand, is its
scale. -/
theorem log2_units (rank : Nat) : Nat.log2 (units rank) - 52 = scale rank := by
  -- Below the first binade a rank is its own magnitude; above it the significand has its leading
  -- bit.
  by_cases hsub : rank < ranksPerBinade
  · have hunits : units rank = rank := by
      rw [units, significand, if_pos hsub, scale, Nat.div_eq_of_lt hsub]
      exact Nat.mul_one rank
    have hlog : Nat.log2 rank < 52 ∨ rank = 0 := by
      by_cases hzero : rank = 0
      · exact .inr hzero
      · exact .inl ((Nat.log2_lt hzero).2 hsub)
    have hscale : scale rank = 0 := by rw [scale, Nat.div_eq_of_lt hsub]
    rw [hunits, hscale]
    rcases hlog with hlog | hzero
    · omega
    · rw [hzero]
      decide
  · have hsig : significand rank = ranksPerBinade + rank % ranksPerBinade := if_neg hsub
    have hlow : 2 ^ 52 ≤ significand rank := by
      rw [hsig]
      exact Nat.le_add_right _ _
    have hhigh : significand rank < 2 ^ 53 := significand_lt rank
    have hpos : 0 < 2 ^ scale rank := Nat.pow_pos (by decide)
    have hlog : Nat.log2 (units rank) = 52 + scale rank := by
      refine (Nat.log2_eq_iff ?_).2 ⟨?_, ?_⟩
      · exact Nat.ne_of_gt (Nat.mul_pos (Nat.lt_of_lt_of_le (by decide) hlow) hpos)
      · rw [Nat.pow_add]
        exact Nat.mul_le_mul_right _ hlow
      · rw [show 52 + scale rank + 1 = 53 + scale rank by omega, Nat.pow_add]
        exact Nat.mul_lt_mul_of_pos_right hhigh hpos
    rw [hlog, Nat.add_sub_cancel_left]

/-- The fields of a rank put together again: its scale in binades, and the significand
on top of it. -/
theorem scale_add_significand (rank : Nat) :
    scale rank * ranksPerBinade + significand rank = rank := by
  by_cases hsub : rank < ranksPerBinade
  · rw [scale, Nat.div_eq_of_lt hsub, significand, if_pos hsub, Nat.zero_sub, Nat.zero_mul,
      Nat.zero_add]
  · have hfield : 1 ≤ rank / ranksPerBinade :=
      (Nat.le_div_iff_mul_le (by decide)).2 (by omega)
    have hdiv := Nat.div_add_mod rank ranksPerBinade
    rw [scale, significand, if_neg hsub]
    obtain ⟨field, hfield⟩ : ∃ field, rank / ranksPerBinade = field + 1 :=
      ⟨rank / ranksPerBinade - 1, by omega⟩
    rw [hfield, Nat.mul_succ] at hdiv
    rw [hfield, Nat.add_sub_cancel, Nat.mul_comm]
    omega

/-- A quotient that is a rank's magnitude has that rank. -/
theorem nearestRank_of_units {num den rank : Nat} (hden : 0 < den)
    (h : num * unitsPerOne = units rank * den) : nearestRank num den = rank := by
  have hdiv : units rank * den / den = units rank := Nat.mul_div_cancel _ hden
  simp only [nearestRank]
  rw [h, hdiv, log2_units]
  have hsplit : units rank * den = significand rank * (den * twoTo (scale rank)) := by
    rw [units, Nat.mul_assoc, Nat.mul_comm (twoTo _)]
  rw [hsplit, roundQuotient_exact _ _ (Nat.mul_pos hden (twoTo_pos _)), scale_add_significand]

/-! ## Decimals -/

namespace Decimal

theorem den_pos (d : Decimal) : 0 < d.den := tenTo_pos _

theorem nearestRank_zero (exponent : Int) : (⟨0, exponent⟩ : Decimal).nearestRank = 0 := if_pos rfl

/-- Between the limits a decimal is rounded as a quotient. -/
theorem nearestRank_eq {d : Decimal} (hdigits : d.digits ≠ 0) (hhigh : d.exponent ≤ 310)
    (hlow : -330 ≤ d.exponent + (digitsOf d.digits).length) :
    d.nearestRank = Binary64.nearestRank d.num d.den := by
  rw [nearestRank, if_neg hdigits, if_neg (show ¬310 < d.exponent by omega),
    if_neg (show ¬d.exponent + (digitsOf d.digits).length < -330 by omega)]

/-- Far below the lowest rank a decimal is zero. -/
theorem nearestRank_eq_zero {d : Decimal} (hhigh : d.exponent ≤ 310)
    (hlow : d.exponent + (digitsOf d.digits).length < -330) : d.nearestRank = 0 := by
  rw [nearestRank, if_neg (show ¬310 < d.exponent by omega), if_pos hlow, ite_self]

/-- A number has at most `k` digits if it is below the `k`-th power of ten. -/
theorem length_digitsOf_le_iff {n k : Nat} (hk : 0 < k) :
    (digitsOf n).length ≤ k ↔ n < tenTo k :=
  Nat.length_toDigits_le_iff (by decide) hk

/-- The digits of a number with zeros behind them. -/
theorem length_digitsOf_mul {n : Nat} (hn : n ≠ 0) (k : Nat) :
    (digitsOf (n * tenTo k)).length = (digitsOf n).length + k := by
  induction k with
  | zero => rw [show tenTo 0 = 1 from rfl, Nat.mul_one, Nat.add_zero]
  | succ k ih =>
    have hpos : 0 < n * tenTo k := Nat.mul_pos (Nat.pos_of_ne_zero hn) (tenTo_pos k)
    have hstep : n * tenTo (k + 1) = 10 * (n * tenTo k) + 0 := by
      rw [tenTo_add, show tenTo 1 = 10 from rfl, Nat.add_zero, ← Nat.mul_assoc, Nat.mul_comm 10]
    rw [hstep, digitsOf, ← Nat.toDigits_append_toDigits (by decide) hpos (by decide),
      List.length_append, Nat.toDigits_zero]
    rw [digitsOf] at ih
    rw [ih]
    rfl

/-- **A zero may stand among the digits or in the exponent.** -/
theorem nearestRank_zeros {d e : Decimal} (k : Nat) (hdigits : d.digits ≠ 0)
    (hhigh : d.exponent ≤ 310) (he : e.digits = d.digits * tenTo k)
    (hexponent : e.exponent = d.exponent - k) : e.nearestRank = d.nearestRank := by
  have hlength := length_digitsOf_mul hdigits k
  have hdigits' : e.digits ≠ 0 := by
    rw [he]
    exact Nat.ne_of_gt (Nat.mul_pos (Nat.pos_of_ne_zero hdigits) (tenTo_pos k))
  rw [← he] at hlength
  by_cases hlow : d.exponent + (digitsOf d.digits).length < -330
  · rw [nearestRank_eq_zero hhigh hlow, nearestRank_eq_zero (by omega) (by omega)]
  · rw [nearestRank_eq hdigits hhigh (by omega), nearestRank_eq hdigits' (by omega) (by omega)]
    refine nearestRank_congr (den_pos _) (den_pos _) ?_
    have hzeros : k + (e.exponent.toNat + (-d.exponent).toNat) =
        d.exponent.toNat + (-e.exponent).toNat := by omega
    simp only [num, den, he, Nat.mul_assoc]
    rw [← tenTo_add, ← tenTo_add, ← tenTo_add, hzeros]

end Decimal

/-! ## The shortest decimal -/

/-- The exact decimal is long: its digits are those of a multiple of `5 ^ 1074`. -/
theorem lt_length_exactDecimal {rank : Nat} (hrank : rank ≠ 0) :
    743 < (Decimal.digitsOf (exactDecimal rank).digits).length := by
  have hlarge : tenTo 743 ≤ Nat.pow 5 1074 := by decide +kernel
  have hdigits : Nat.pow 5 1074 ≤ (exactDecimal rank).digits :=
    Nat.le_mul_of_pos_left _ (units_pos hrank)
  refine Nat.lt_of_not_le (fun hle => ?_)
  have hsmall := (Decimal.length_digitsOf_le_iff (by decide)).1 hle
  exact Nat.not_le_of_lt hsmall (Nat.le_trans hlarge hdigits)

theorem nearestRank_exactDecimal {rank : Nat} (hrank : rank ≠ 0) :
    (exactDecimal rank).nearestRank = rank := by
  have hlength := lt_length_exactDecimal hrank
  have hexponent : (exactDecimal rank).exponent = -1074 := rfl
  have hdigits : (exactDecimal rank).digits ≠ 0 := by
    intro hzero
    rw [hzero] at hlength
    exact absurd hlength (by decide)
  rw [Decimal.nearestRank_eq hdigits (by omega) (by omega)]
  refine nearestRank_of_units (Decimal.den_pos _) ?_
  -- Half a unit is five tenths.
  have hhalf : Nat.pow 5 1074 * unitsPerOne = tenTo 1074 := by decide +kernel
  have hnum : (exactDecimal rank).num = units rank * Nat.pow 5 1074 := Nat.mul_one _
  rw [hnum, Nat.mul_assoc, hhalf]
  rfl

/-- Of two neighbours only one that has been tried is answered. -/
theorem eitherOf_spec {rank : Nat} {below above d : Decimal}
    (h : eitherOf? rank below above = some d) :
    d.nearestRank = rank ∧ (d = below ∨ d = above) := by
  rw [eitherOf?] at h
  cases hbelow : below.nearestRank == rank <;> cases habove : above.nearestRank == rank <;>
    rw [hbelow, habove] at h
  · cases h
  · cases h
    exact ⟨eq_of_beq habove, .inr rfl⟩
  · cases h
    exact ⟨eq_of_beq hbelow, .inl rfl⟩
  · dsimp only at h
    split at h
    · cases h
      exact ⟨eq_of_beq habove, .inr rfl⟩
    · cases h
      exact ⟨eq_of_beq hbelow, .inl rfl⟩

/-- What the search among `n` digits answers lies on their grid. -/
theorem shortestOf_spec {rank n : Nat} {d : Decimal} (h : shortestOf? rank n = some d) :
    d.nearestRank = rank ∧ d.exponent = leadingExponent rank - n + 1 := by
  rw [shortestOf?] at h
  obtain ⟨hrank, rfl | rfl⟩ := eitherOf_spec h
  · exact ⟨hrank, rfl⟩
  · exact ⟨hrank, rfl⟩

/-- **The shortest decimal of a rank reads back as the rank.** -/
theorem nearestRank_shortest {rank : Nat} (hrank : rank ≠ 0) :
    (shortest rank).nearestRank = rank := by
  unfold shortest
  cases hfound : (List.range' 1 17).findSome? (shortestOf? rank) with
  | none => exact nearestRank_exactDecimal hrank
  | some d =>
    obtain ⟨n, -, hd⟩ := List.exists_of_findSome?_eq_some hfound
    exact (shortestOf_spec hd).1

theorem leadingExponent_le {rank : Nat} (hrank : rank < finiteRanks) :
    leadingExponent rank ≤ 308 := by
  have hbound : twoTo 2098 * tenTo 400 / unitsPerOne < tenTo 709 := by decide +kernel
  have hquot : units rank * tenTo 400 / unitsPerOne < tenTo 709 := by
    refine Nat.lt_of_le_of_lt (Nat.div_le_div_right ?_) hbound
    exact Nat.mul_le_mul_right _ (Nat.le_of_lt (units_lt hrank))
  have hlength := (Decimal.length_digitsOf_le_iff (by decide)).2 hquot
  rw [leadingExponent]
  omega

theorem exponent_shortest_le {rank : Nat} (hrank : rank < finiteRanks) :
    (shortest rank).exponent ≤ 308 := by
  have hleading := leadingExponent_le hrank
  unfold shortest
  cases hfound : (List.range' 1 17).findSome? (shortestOf? rank) with
  | none => exact (by decide : (-1074 : Int) ≤ 308)
  | some d =>
    obtain ⟨n, hn, hd⟩ := List.exists_of_findSome?_eq_some hfound
    have hpos : 1 ≤ n := (List.mem_range'_1.1 hn).1
    have hexponent := (shortestOf_spec hd).2
    rw [Option.getD_some, hexponent]
    omega

end SourceDrift.Binary64

/-! ## The decimal that is written -/

namespace SourceDrift.Json.Number

open Binary64

/-- With a zero moved into the exponent a decimal is still the same number. -/
theorem nearestRank_dropZero {d : Decimal} (hhigh : d.exponent ≤ 308) :
    (dropZero d).nearestRank = d.nearestRank := by
  rw [dropZero]
  split
  · next hzero =>
    have hmoved : d.digits = d.digits / 10 * tenTo 1 := by
      rw [show tenTo 1 = 10 from rfl]
      omega
    by_cases hdigits : d.digits / 10 = 0
    · rw [Decimal.nearestRank, Decimal.nearestRank, if_pos hdigits, if_pos (by omega)]
    · refine (Decimal.nearestRank_zeros 1 hdigits ?_ hmoved ?_).symm
      · show d.exponent + 1 ≤ 310
        omega
      · show d.exponent = d.exponent + 1 - (1 : Nat)
        omega
  · rfl

theorem exponent_dropZero_le (d : Decimal) : (dropZero d).exponent ≤ d.exponent + 1 := by
  rw [dropZero]
  split
  · exact Int.le_refl _
  · omega

/-- **What is written of a rank reads back as the rank**, and is within the limits. -/
theorem writtenDecimal_spec {rank : Nat} (hrank : rank ≠ 0) (hfinite : rank < finiteRanks) :
    (writtenDecimal rank).exponent ≤ 309 ∧ (writtenDecimal rank).nearestRank = rank := by
  have hexponent := exponent_shortest_le hfinite
  have hdrop := exponent_dropZero_le (shortest rank)
  rw [writtenDecimal, if_neg hrank, nearestRank_dropZero hexponent]
  exact ⟨by omega, nearestRank_shortest hrank⟩

end SourceDrift.Json.Number
