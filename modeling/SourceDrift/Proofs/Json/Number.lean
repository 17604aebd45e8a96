/-
What is written of a number is read back as the number.

A spelling is taken apart as `Number.Literal` takes it: the sign, the whole part, the
fraction, the exponent. `Literal.text` puts these together again, and is what every
number is written as; `read_text` reads it back, whatever stands behind it, so long as
that would not go on with the number. What remains is a count of digits: the decimal of
the literal is the decimal that was written, or that decimal with some zeros moved.
-/
import SourceDrift.Json.Reader
import SourceDrift.Proofs.Binary64

set_option autoImplicit false

namespace SourceDrift.Json.Number

open Binary64 Numeral

/-! ## Runs of digits -/

/-- Whether a text does not go on with a number that ends before it. -/
def EndsNumber (rest : List Char) : Prop :=
  ∀ c, rest.head? = some c → isDigit c = false ∧ c ≠ '.' ∧ c ≠ 'e' ∧ c ≠ 'E'

theorem takeDigits_append {ds rest : List Char} (hds : ∀ c ∈ ds, isDigit c = true)
    (hrest : ∀ c, rest.head? = some c → isDigit c = false) :
    takeDigits (ds ++ rest) = (ds, rest) := by
  have hstop : rest.takeWhile isDigit = [] ∧ rest.dropWhile isDigit = rest := by
    cases rest with
    | nil => exact ⟨rfl, rfl⟩
    | cons c cs =>
      have hc := hrest c rfl
      exact ⟨List.takeWhile_cons_of_neg (by rw [hc]; exact Bool.false_ne_true),
        List.dropWhile_cons_of_neg (by rw [hc]; exact Bool.false_ne_true)⟩
  rw [takeDigits, List.takeWhile_append_of_pos hds, List.dropWhile_append_of_pos hds, hstop.1,
    hstop.2, List.append_nil]

/-! ## Literals and their text -/

/-- The text of a fraction; none without digits. -/
def fractionText : List Char → List Char
  | [] => []
  | d :: ds => '.' :: d :: ds

/-- The text of an exponent, its letter included. -/
def powerText : Option Int → List Char
  | none => []
  | some e => 'e' :: exponentText e

/-- The text of a literal. -/
def Literal.text (l : Literal) : List Char :=
  signText l.negative ++ (l.whole ++ (fractionText l.fraction ++ powerText l.exponent))

/-- A literal as the grammar has it: a zero in front stands alone. -/
structure Literal.Proper (l : Literal) : Prop where
  whole_ne : l.whole ≠ []
  whole_digits : ∀ c ∈ l.whole, isDigit c = true
  whole_zero : l.whole.head? = some '0' → l.whole = ['0']
  fraction_digits : ∀ c ∈ l.fraction, isDigit c = true

theorem isDigit_of_mem_zeros {n : Nat} {c : Char} (hc : c ∈ List.replicate n '0') :
    isDigit c = true := by
  rw [List.eq_of_mem_replicate hc]
  rfl

/-- The digits of an exponent, after its sign. -/
def exponentDigits (e : Int) : List Char :=
  if (digits e.natAbs).length < 2 then '0' :: digits e.natAbs else digits e.natAbs

theorem isDigit_of_mem_exponentDigits {e : Int} {c : Char} (hc : c ∈ exponentDigits e) :
    isDigit c = true := by
  unfold exponentDigits at hc
  split at hc
  · rcases List.mem_cons.1 hc with rfl | hc
    · rfl
    · exact isDigit_of_mem_digits hc
  · exact isDigit_of_mem_digits hc

/-- A literal is made of digits and of four marks: what holds of these holds of all of it. -/
theorem Literal.forall_mem_text {P : Char → Prop} {l : Literal} (hl : l.Proper)
    (hdigit : ∀ c, isDigit c = true → P c) (hmarks : ∀ c ∈ ['-', '.', 'e', '+'], P c) :
    ∀ c ∈ l.text, P c := by
  intro c hc
  rw [Literal.text, List.mem_append, List.mem_append, List.mem_append] at hc
  -- The sign, the whole digits, those behind the point, and the power.
  rcases hc with hsign | hwhole | hfraction | hpower
  · rw [signText] at hsign
    split at hsign
    · rw [List.mem_singleton.1 hsign]
      exact hmarks _ (by decide)
    · exact absurd hsign List.not_mem_nil
  · exact hdigit c (hl.whole_digits c hwhole)
  · have hdigits := hl.fraction_digits
    cases hds : l.fraction with
    | nil =>
      rw [hds] at hfraction
      exact absurd hfraction List.not_mem_nil
    | cons d ds =>
      rw [hds] at hfraction hdigits
      rcases List.mem_cons.1 hfraction with rfl | hc
      · exact hmarks _ (by decide)
      · exact hdigit c (hdigits c hc)
  · cases hexponent : l.exponent with
    | none =>
      rw [hexponent] at hpower
      exact absurd hpower List.not_mem_nil
    | some e =>
      rw [hexponent, powerText, exponentText, List.mem_cons, List.mem_cons] at hpower
      rcases hpower with rfl | rfl | hc
      · exact hmarks _ (by decide)
      · refine hmarks _ ?_
        split <;> decide
      · exact hdigit c (isDigit_of_mem_exponentDigits hc)

theorem exponentDigits_ne_nil (e : Int) : exponentDigits e ≠ [] := by
  unfold exponentDigits
  split
  · exact List.cons_ne_nil _ _
  · exact digits_ne_nil _

theorem value_exponentDigits (e : Int) : value (exponentDigits e) = e.natAbs := by
  unfold exponentDigits
  split
  · rw [← List.singleton_append, value_append, show value ['0'] = 0 from rfl, value_digits,
      Nat.mul_zero, Nat.zero_add]
  · exact value_digits _

theorem takeExponent_powerText {e : Int} {rest : List Char}
    (hrest : ∀ c, rest.head? = some c → isDigit c = false) :
    takeExponent (powerText (some e) ++ rest) = (some e, rest) := by
  have hdigits : takeDigits (exponentDigits e ++ rest) = (exponentDigits e, rest) :=
    takeDigits_append (fun _ => isDigit_of_mem_exponentDigits) hrest
  have hvalue := value_exponentDigits e
  obtain ⟨d, ds, hds⟩ := List.exists_cons_of_ne_nil (exponentDigits_ne_nil e)
  by_cases hneg : e < 0
  · have htext : powerText (some e) ++ rest = 'e' :: '-' :: (exponentDigits e ++ rest) := by
      simp only [powerText, exponentText, exponentDigits, if_pos hneg, List.cons_append]
    rw [hds] at htext hdigits hvalue
    unfold takeExponent
    simp only [htext, hdigits, hvalue, true_or, if_true]
    congr 2
    omega
  · have htext : powerText (some e) ++ rest = 'e' :: '+' :: (exponentDigits e ++ rest) := by
      simp only [powerText, exponentText, exponentDigits, if_neg hneg, List.cons_append]
    rw [hds] at htext hdigits hvalue
    unfold takeExponent
    simp only [htext, hdigits, hvalue, true_or, if_true, Bool.false_eq_true, if_false]
    congr 2
    omega

theorem takeExponent_none {rest : List Char} (hrest : EndsNumber rest) :
    takeExponent rest = (none, rest) := by
  cases rest with
  | nil => rfl
  | cons c cs =>
    obtain ⟨-, -, he, hE⟩ := hrest c rfl
    unfold takeExponent
    exact if_neg (fun h => h.elim he hE)

/-! ## Reading a literal -/

/-- What stands behind the fraction does not go on with it. -/
theorem head_powerText {e : Option Int} {rest : List Char} (hrest : EndsNumber rest) :
    ∀ c, (powerText e ++ rest).head? = some c → isDigit c = false ∧ c ≠ '.' := by
  intro c hc
  cases e with
  | none => exact ⟨(hrest c hc).1, (hrest c hc).2.1⟩
  | some e =>
    rw [← Option.some.inj hc]
    decide

theorem takeFraction_append {fraction rest : List Char}
    (hfraction : ∀ c ∈ fraction, isDigit c = true)
    (hrest : ∀ c, rest.head? = some c → isDigit c = false ∧ c ≠ '.') :
    takeFraction (fractionText fraction ++ rest) = (fraction, rest) := by
  cases fraction with
  | nil =>
    cases rest with
    | nil => rfl
    | cons c cs =>
      have hc : c ≠ '.' := (hrest c rfl).2
      show takeFraction (c :: cs) = ([], c :: cs)
      unfold takeFraction
      split
      · next heq => exact absurd (List.cons.inj heq).1 hc
      · rfl
  | cons d ds =>
    have hdigits : takeDigits (d :: ds ++ rest) = (d :: ds, rest) :=
      takeDigits_append hfraction (fun c hc => (hrest c hc).1)
    simp only [fractionText, List.cons_append, takeFraction] at hdigits ⊢
    rw [hdigits]

theorem takeWhole_append {l : Literal} (hl : l.Proper) {rest : List Char}
    (hrest : ∀ c, rest.head? = some c → isDigit c = false) :
    takeWhole? (l.whole ++ rest) = some (l.whole, rest) := by
  have hdigits := takeDigits_append hl.whole_digits hrest
  obtain ⟨c, cs, hwhole⟩ := List.exists_cons_of_ne_nil hl.whole_ne
  rw [hwhole] at hdigits ⊢
  unfold takeWhole?
  simp only [List.cons_append] at hdigits ⊢
  by_cases hc : c = '0'
  · have hzero : l.whole = ['0'] := hl.whole_zero (by rw [hwhole, hc, List.head?_cons])
    rw [hwhole] at hzero
    rw [if_pos hc, (List.cons.inj hzero).2, List.nil_append]
  · have hdigit : isDigit c = true := hl.whole_digits c (by rw [hwhole]; exact List.mem_cons_self)
    rw [if_neg hc, if_pos hdigit, hdigits]

theorem takeSign_append {l : Literal} (hl : l.Proper) (rest : List Char) :
    takeSign (signText l.negative ++ (l.whole ++ rest)) = (l.negative, l.whole ++ rest) := by
  cases l.negative with
  | true => rfl
  | false =>
    obtain ⟨c, cs, hcs⟩ := List.exists_cons_of_ne_nil hl.whole_ne
    have hc : c ≠ '-' := by
      rintro rfl
      exact absurd (hl.whole_digits '-' (by rw [hcs]; exact List.mem_cons_self)) (by decide)
    rw [hcs]
    show takeSign (c :: (cs ++ rest)) = (false, c :: (cs ++ rest))
    unfold takeSign
    split
    · next heq => exact absurd (List.cons.inj heq).1 hc
    · rfl

/-- **A literal is read back from its text.** -/
theorem read_text {l : Literal} (hl : l.Proper) {rest : List Char} (hrest : EndsNumber rest) :
    read? (l.text ++ rest) = some (l, rest) := by
  have hpower := head_powerText (e := l.exponent) hrest
  have hafter : ∀ c, (fractionText l.fraction ++ (powerText l.exponent ++ rest)).head? = some c →
      isDigit c = false := by
    intro c hc
    cases hfraction : l.fraction with
    | nil =>
      rw [hfraction] at hc
      exact (hpower c hc).1
    | cons d ds =>
      rw [hfraction] at hc
      rw [← Option.some.inj hc]
      decide
  have hwhole := takeWhole_append hl hafter
  have hfraction := takeFraction_append hl.fraction_digits hpower
  have hexponent : takeExponent (powerText l.exponent ++ rest) = (l.exponent, rest) := by
    cases hexp : l.exponent with
    | none => exact takeExponent_none hrest
    | some e => exact takeExponent_powerText (fun c hc => (hrest c hc).1)
  unfold read? Literal.text
  simp only [List.append_assoc, takeSign_append hl, hwhole, hfraction, hexponent]

/-! ## Integers -/

/-- The literal of an integer. -/
def literalOfInt (n : Int) : Literal := ⟨decide (n < 0), digits n.natAbs, [], none⟩

theorem text_literalOfInt (n : Int) : (literalOfInt n).text = ofInt n := by
  cases n with
  | ofNat n => exact List.append_nil _
  | negSucc n =>
    rw [Literal.text, literalOfInt, decide_eq_true (Int.negSucc_lt_zero n)]
    exact congrArg ('-' :: ·) (List.append_nil _)

theorem proper_literalOfInt (n : Int) : (literalOfInt n).Proper where
  whole_ne := digits_ne_nil _
  whole_digits _ := isDigit_of_mem_digits
  whole_zero hzero := by
    by_cases hn : n.natAbs = 0
    · rw [literalOfInt, hn, digits_zero]
    · exact absurd hzero (head_digits_ne_zero hn)
  fraction_digits _ hc := absurd hc List.not_mem_nil

theorem value_literalOfInt {n : Int} (hn : isShowable n = true) :
    (literalOfInt n).value = .ok (.int n) := by
  have hlength : (digits n.natAbs).length ≤ maxDigits := of_decide_eq_true hn
  have hvalue : (if n < 0 then -(n.natAbs : Int) else n.natAbs) = n := by omega
  simp only [literalOfInt, Literal.value, boundedValue, if_neg (Nat.not_lt_of_le hlength),
    value_digits, Except.map, decide_eq_true_eq, hvalue]

/-! ## Doubles -/

/-- Whether a literal spells a decimal with a sign, but for zeros moved out of its
exponent. It has a fraction or an exponent, so that it is read as a double. -/
structure Spells (l : Literal) (negative : Bool) (d : Decimal) : Prop where
  sign : l.negative = negative
  proper : l.Proper
  double : l.fraction ≠ [] ∨ l.exponent ≠ none
  zeros : ∃ k : Nat, value (l.whole ++ l.fraction) = d.digits * tenTo k ∧
    l.exponent.getD 0 - l.fraction.length = d.exponent - k

theorem fractionText_of_ne_nil {ds : List Char} (hds : ds ≠ []) : fractionText ds = '.' :: ds := by
  obtain ⟨c, cs, rfl⟩ := List.exists_cons_of_ne_nil hds
  rfl

/-- Digits that start with a zero, where only zero itself may. -/
theorem eq_zero_of_head {d : Decimal} (hd : d.digits ≠ 0 ∨ d = ⟨0, 0⟩)
    (hhead : (digits d.digits).head? = some '0') : d = ⟨0, 0⟩ :=
  hd.resolve_left (fun hne => head_digits_ne_zero hne hhead)

/-- The point stands before the digits. -/
theorem spells_before (negative : Bool) {d : Decimal} {k : Nat}
    (hk : d.exponent + (digits d.digits).length = -k) :
    Spells ⟨negative, ['0'], List.replicate k '0' ++ digits d.digits, none⟩ negative d where
  sign := rfl
  proper :=
    { whole_ne := List.cons_ne_nil _ _
      whole_digits := by
        intro c hc
        rw [List.mem_singleton.1 hc]
        rfl
      whole_zero := fun _ => rfl
      fraction_digits := by
        intro c hc
        rcases List.mem_append.1 hc with hc | hc
        · exact isDigit_of_mem_zeros hc
        · exact isDigit_of_mem_digits hc }
  double := .inl (List.append_ne_nil_of_right_ne_nil _ (digits_ne_nil _))
  zeros := by
    refine ⟨0, ?_, ?_⟩
    · rw [value_append, value_append, value_zeros, value_digits, show value ['0'] = 0 from rfl,
        Nat.mul_zero, Nat.mul_zero, Nat.zero_add, Nat.zero_add]
      exact (Nat.mul_one _).symm
    · rw [List.length_append, List.length_replicate, Option.getD_none]
      omega

/-- The point stands behind the digits. -/
theorem spells_behind (negative : Bool) {d : Decimal} (hd : d.digits ≠ 0 ∨ d = ⟨0, 0⟩) {k : Nat}
    (hk : d.exponent = k) :
    Spells ⟨negative, digits d.digits ++ List.replicate k '0', ['0'], none⟩ negative d where
  sign := rfl
  proper :=
    { whole_ne := List.append_ne_nil_of_left_ne_nil (digits_ne_nil _) _
      whole_digits := by
        intro c hc
        rcases List.mem_append.1 hc with hc | hc
        · exact isDigit_of_mem_digits hc
        · exact isDigit_of_mem_zeros hc
      whole_zero := by
        intro hhead
        obtain ⟨c, cs, hcs⟩ := List.exists_cons_of_ne_nil (digits_ne_nil d.digits)
        have hdigits : (digits d.digits).head? = some '0' := by
          rw [hcs] at hhead ⊢
          exact hhead
        rw [eq_zero_of_head hd hdigits] at hk ⊢
        rw [← Int.ofNat.inj hk]
        rfl
      fraction_digits := by
        intro c hc
        rw [List.mem_singleton.1 hc]
        rfl }
  double := .inl (List.cons_ne_nil _ _)
  zeros := by
    refine ⟨k + 1, ?_, ?_⟩
    · rw [List.append_assoc, ← List.replicate_succ', value_append, value_zeros, value_digits,
        List.length_replicate, Nat.add_zero, Nat.mul_comm]
      rfl
    · rw [Option.getD_none, List.length_singleton]
      omega

/-- The point stands among the digits. -/
theorem spells_among (negative : Bool) {d : Decimal} (hd : d.digits ≠ 0 ∨ d = ⟨0, 0⟩) {k : Nat}
    (hpos : 0 < k) (hk : k < (digits d.digits).length)
    (hexponent : d.exponent + (digits d.digits).length = k) :
    Spells ⟨negative, (digits d.digits).take k, (digits d.digits).drop k, none⟩ negative d where
  sign := rfl
  proper :=
    { whole_ne := by
        intro h
        rw [List.take_eq_nil_iff] at h
        exact h.elim (Nat.ne_of_gt hpos) (digits_ne_nil _)
      whole_digits := fun _ hc => isDigit_of_mem_digits (List.mem_of_mem_take hc)
      whole_zero := by
        intro hhead
        rw [List.head?_take, if_neg (Nat.ne_of_gt hpos)] at hhead
        rw [eq_zero_of_head hd hhead] at hk
        exact absurd (Nat.lt_of_lt_of_le hk (Nat.le_refl 1)) (Nat.not_lt_of_le hpos)
      fraction_digits := fun _ hc => isDigit_of_mem_digits (List.mem_of_mem_drop hc) }
  double := .inl (fun h => Nat.not_le_of_lt hk (List.drop_eq_nil_iff.1 h))
  zeros := by
    refine ⟨0, ?_, ?_⟩
    · rw [List.take_append_drop, value_digits]
      exact (Nat.mul_one _).symm
    · rw [Option.getD_none, List.length_drop]
      omega

theorem exists_spells_positional (negative : Bool) {d : Decimal} (hd : d.digits ≠ 0 ∨ d = ⟨0, 0⟩) :
    ∃ l : Literal, Spells l negative d ∧ l.text = signText negative ++
      positional (digits d.digits) (d.exponent + (digits d.digits).length) := by
  -- The point stands before, behind or among the digits.
  unfold positional
  split
  · next hbefore =>
    obtain ⟨k, hk⟩ := Int.eq_ofNat_of_zero_le (Int.neg_nonneg_of_nonpos hbefore)
    have hspells := spells_before negative (d := d) (k := k) (by omega)
    refine ⟨_, hspells, ?_⟩
    have hne := hspells.double.resolve_right (fun h => h rfl)
    rw [hk, Int.toNat_natCast, Literal.text, fractionText_of_ne_nil hne, powerText, List.append_nil]
    rfl
  · split
    · next hbehind =>
      obtain ⟨k, hk⟩ := Int.eq_ofNat_of_zero_le (show 0 ≤ d.exponent by omega)
      have hzeros : (d.exponent + (digits d.digits).length).toNat -
          (digits d.digits).length = k := by
        omega
      refine ⟨_, spells_behind negative hd hk, ?_⟩
      rw [hzeros]
      simp only [Literal.text, fractionText, powerText, List.append_nil]
    · next hafter hbehind =>
      obtain ⟨k, hk⟩ := Int.eq_ofNat_of_zero_le (Int.le_of_lt (Int.not_le.1 hafter))
      have hspells := spells_among negative hd (k := k) (by omega) (by omega) hk
      refine ⟨_, hspells, ?_⟩
      have hne := hspells.double.resolve_right (fun h => h rfl)
      rw [hk, Int.toNat_natCast, Literal.text, fractionText_of_ne_nil hne, powerText,
        List.append_nil]

theorem exists_spells_scientific (negative : Bool) (d : Decimal) :
    ∃ l : Literal, Spells l negative d ∧ l.text = signText negative ++
      scientific (digits d.digits) (d.exponent + (digits d.digits).length - 1) := by
  obtain ⟨c, cs, hcs⟩ := List.exists_cons_of_ne_nil (digits_ne_nil d.digits)
  have hmem : ∀ x ∈ c :: cs, isDigit x = true := fun x hx =>
    isDigit_of_mem_digits (by rw [hcs]; exact hx)
  have hvalue : value (c :: cs) = d.digits * tenTo 0 := by
    rw [← hcs, value_digits]
    exact (Nat.mul_one _).symm
  refine ⟨⟨negative, [c], cs, some (d.exponent + (digits d.digits).length - 1)⟩,
    ⟨rfl, ⟨List.cons_ne_nil _ _, ?_, ?_, fun x hx => hmem x (List.mem_cons_of_mem _ hx)⟩,
      .inr (Option.some_ne_none _), 0, hvalue, ?_⟩, ?_⟩
  · exact fun x hx => hmem x (List.mem_cons.2 (.inl (List.mem_singleton.1 hx)))
  · intro hhead
    rw [Option.some.inj hhead]
  · rw [hcs, Option.getD_some, List.length_cons]
    show d.exponent + (cs.length + 1 : Nat) - 1 - cs.length = d.exponent - (0 : Nat)
    omega
  · rw [hcs]
    cases cs <;> rfl

/-- What is written of a decimal spells it. -/
theorem exists_spells_decimalText (negative : Bool) {d : Decimal}
    (hd : d.digits ≠ 0 ∨ d = ⟨0, 0⟩) :
    ∃ l : Literal, Spells l negative d ∧ l.text = signText negative ++ decimalText d := by
  unfold decimalText
  dsimp only
  split
  · exact exists_spells_positional negative hd
  · exact exists_spells_scientific negative d

theorem nearestRank_of_spells {l : Literal} {negative : Bool} {d : Decimal}
    (hl : Spells l negative d)
    (hd : d.digits ≠ 0 ∨ d = ⟨0, 0⟩) (hhigh : d.exponent ≤ 310) :
    (⟨value (l.whole ++ l.fraction), l.exponent.getD 0 - l.fraction.length⟩ : Decimal).nearestRank =
      d.nearestRank := by
  obtain ⟨k, hdigits, hexponent⟩ := hl.zeros
  rcases hd with hd | rfl
  · exact Decimal.nearestRank_zeros k hd hhigh hdigits hexponent
  · rw [Nat.zero_mul] at hdigits
    rw [hdigits, Decimal.nearestRank_zero, Decimal.nearestRank_zero]

/-- A double has a spelling that is no integer's and is worth the double. -/
theorem exists_literal (negative : Bool) (rank : Fin finiteRanks) :
    ∃ l : Literal, l.Proper ∧ l.text = ofBinary64 (.finite negative rank) ∧
      l.value = .ok (.float (.finite negative rank)) := by
  obtain ⟨rank, hfinite⟩ := rank
  have hwritten : (writtenDecimal rank).digits ≠ 0 ∨ writtenDecimal rank = ⟨0, 0⟩ := by
    by_cases hrank : rank = 0
    · exact .inr (if_pos hrank)
    · refine .inl (fun hzero => ?_)
      have hback := (writtenDecimal_spec hrank hfinite).2
      rw [Decimal.nearestRank, if_pos hzero] at hback
      exact hrank hback.symm
  have hback : (writtenDecimal rank).exponent ≤ 310 ∧ (writtenDecimal rank).nearestRank = rank := by
    by_cases hrank : rank = 0
    · rw [writtenDecimal, if_pos hrank, Decimal.nearestRank_zero, hrank]
      exact ⟨(by decide), rfl⟩
    · have h := writtenDecimal_spec hrank hfinite
      exact ⟨by omega, h.2⟩
  -- The text spells the decimal, and the decimal is nearest to no other double.
  obtain ⟨l, hl, htext⟩ := exists_spells_decimalText negative hwritten
  refine ⟨l, hl.proper, htext, ?_⟩
  have hvalue : l.value = .ok (.float (ofDecimal l.negative
      ⟨value (l.whole ++ l.fraction), l.exponent.getD 0 - l.fraction.length⟩)) := by
    unfold Literal.value
    split
    · next hfraction hexponent => exact absurd hl.double (by rw [hfraction, hexponent]; simp)
    · rfl
  rw [hvalue, ofDecimal, nearestRank_of_spells hl hwritten hback.1, hback.2, ofRank,
    dif_pos hfinite, hl.sign]

end SourceDrift.Json.Number
