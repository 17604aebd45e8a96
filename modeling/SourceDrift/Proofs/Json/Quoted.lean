/-
Quoted text is read back.

A character is written in one of four ways; `encodeChar_cases` lists them and every lemma
about strings starts from it. The reader holds back the first half of a pair until the
second has come, which is the only way in which one escape depends on another.
-/
import SourceDrift.Json.Reader
import SourceDrift.Proofs.Text.Numeral

set_option autoImplicit false

namespace SourceDrift.Json

/-! ## Escapes -/

namespace Quoted

theorem decodeUnit_hexDigits {n : Nat} (hn : n < 0x10000) :
    ∃ a b c d, Numeral.hexDigits 4 n = [a, b, c, d] ∧ decodeUnit? a b c d = some n := by
  have hdigit : ∀ m : Nat, Numeral.hexValue? (Numeral.hexDigit (m % 16)) = some (m % 16) :=
    fun m => Numeral.hexValue_hexDigit _ (Nat.mod_lt m (by decide))
  refine ⟨_, _, _, _, rfl, ?_⟩
  simp only [decodeUnit?, hdigit, Option.bind_eq_bind, Option.bind_some, Option.some.injEq]
  omega

/-- A character's code is no half of a pair. -/
theorem not_isLow (c : Char) : isLow c.toNat = false := by
  have hvalid : c.toNat < 0xD800 ∨ 0xDFFF < c.toNat ∧ c.toNat < 0x110000 := c.valid
  rw [isLow, Bool.and_eq_false_iff, decide_eq_false_iff_not, decide_eq_false_iff_not]
  omega

theorem not_isHigh (c : Char) : isHigh c.toNat = false := by
  have hvalid : c.toNat < 0xD800 ∨ 0xDFFF < c.toNat ∧ c.toNat < 0x110000 := c.valid
  rw [isHigh, Bool.and_eq_false_iff, decide_eq_false_iff_not, decide_eq_false_iff_not]
  omega

/-- The two units of a character above `U+FFFF`. -/
theorem units_of_large {c : Char} (hc : 0x10000 ≤ c.toNat) :
    isHigh (highUnit c.toNat) = true ∧ isLow (highUnit c.toNat) = false ∧
      isLow (lowUnit c.toNat) = true ∧
      joinUnits (highUnit c.toNat) (lowUnit c.toNat) = c := by
  have hvalid : c.toNat < 0xD800 ∨ 0xDFFF < c.toNat ∧ c.toNat < 0x110000 := c.valid
  have hcode : 0x10000 + (highUnit c.toNat - 0xD800) * 0x400 + (lowUnit c.toNat - 0xDC00) =
      c.toNat := by
    rw [highUnit, lowUnit]
    omega
  refine ⟨?_, ?_, ?_, ?_⟩
  · rw [isHigh, highUnit, Bool.and_eq_true, decide_eq_true_iff, decide_eq_true_iff]
    omega
  · rw [isLow, highUnit, Bool.and_eq_false_iff, decide_eq_false_iff_not, decide_eq_false_iff_not]
    omega
  · rw [isLow, lowUnit, Bool.and_eq_true, decide_eq_true_iff, decide_eq_true_iff]
    omega
  · rw [joinUnits, hcode, Char.ofNat_toNat]

/-- The characters that are written by an escape of one letter. -/
def lettered : List Char := ['"', '\\', '\n', '\r', '\t', '\x08', '\x0c']

theorem encodeChar_lettered : ∀ c ∈ lettered, ∃ e, e ≠ 'u' ∧ encodeChar c = ['\\', e] ∧
    decodeLetter? e = some c := by
  intro c hc
  simp only [lettered, List.mem_cons, List.not_mem_nil, or_false] at hc
  rcases hc with rfl | rfl | rfl | rfl | rfl | rfl | rfl <;> exact ⟨_, by decide, rfl, rfl⟩

theorem encodeChar_unlettered {c : Char} (hc : c ∉ lettered) :
    encodeChar c =
      if c.toNat < 0x20 then escapeUnit c.toNat
      else if c.toNat < 0x7F then [c]
      else if c.toNat < 0x10000 then escapeUnit c.toNat
      else escapeUnit (highUnit c.toNat) ++ escapeUnit (lowUnit c.toNat) := by
  simp only [lettered, List.mem_cons, List.not_mem_nil, or_false, not_or] at hc
  obtain ⟨hquote, hslash, hline, hreturn, htab, hback, hfeed⟩ := hc
  rw [encodeChar, if_neg hquote, if_neg hslash, if_neg hline, if_neg hreturn, if_neg htab,
    if_neg hback, if_neg hfeed]

/-- The four ways to write a character: an escape of one letter, the character itself, the
escape of its unit, the escapes of its two units. -/
theorem encodeChar_cases (c : Char) :
    (∃ e, e ≠ 'u' ∧ encodeChar c = ['\\', e] ∧ decodeLetter? e = some c) ∨
    ((c ∉ lettered ∧ 0x20 ≤ c.toNat ∧ c.toNat < 0x7F) ∧ encodeChar c = [c]) ∨
    (c.toNat < 0x10000 ∧ encodeChar c = escapeUnit c.toNat) ∨
    (0x10000 ≤ c.toNat ∧
      encodeChar c = escapeUnit (highUnit c.toNat) ++ escapeUnit (lowUnit c.toNat)) := by
  by_cases hc : c ∈ lettered
  · exact .inl (encodeChar_lettered c hc)
  rw [encodeChar_unlettered hc]
  by_cases hcontrol : c.toNat < 0x20
  · exact .inr (.inr (.inl ⟨by omega, if_pos hcontrol⟩))
  rw [if_neg hcontrol]
  by_cases hvisible : c.toNat < 0x7F
  · exact .inr (.inl ⟨⟨hc, Nat.le_of_not_lt hcontrol, hvisible⟩, if_pos hvisible⟩)
  rw [if_neg hvisible]
  by_cases hsmall : c.toNat < 0x10000
  · exact .inr (.inr (.inl ⟨hsmall, if_pos hsmall⟩))
  · exact .inr (.inr (.inr ⟨Nat.le_of_not_lt hsmall, if_neg hsmall⟩))

end Quoted

theorem Quoted.quote_append (t : String) (rest : List Char) :
    Quoted.quote t ++ rest = '"' :: (Quoted.encode t.toList ++ '"' :: rest) := by
  rw [quote, List.cons_append, List.cons_append, List.append_assoc, List.singleton_append]

/-! ## Strings -/

namespace Reader

theorem stringBody_escapeUnit (start unit : Nat) (pending : Option Nat) {tail more rest : List Char}
    (hunit : unit < 0x10000) (htail : tail ≠ [])
    (h : stringBody start (addUnit pending unit).2 tail = .ok (more, rest)) :
    stringBody start pending (Quoted.escapeUnit unit ++ tail) =
      .ok ((addUnit pending unit).1 ++ more, rest) := by
  obtain ⟨a, b, c, d, hdigits, hdecode⟩ := Quoted.decodeUnit_hexDigits hunit
  have hempty : tail.isEmpty = false := List.isEmpty_eq_false_iff.2 htail
  rw [Quoted.escapeUnit, hdigits]
  show stringBody start pending ('\\' :: 'u' :: a :: b :: c :: d :: tail) = _
  unfold stringBody
  rw [if_neg (by decide), if_pos rfl]
  simp only [if_true, hempty, Bool.false_eq_true, if_false, hdecode, h]

theorem stringBody_letter {start : Nat} {e x : Char} {tail more rest : List Char} (he : e ≠ 'u')
    (hx : Quoted.decodeLetter? e = some x) (h : stringBody start none tail = .ok (more, rest)) :
    stringBody start none ('\\' :: e :: tail) = .ok (x :: more, rest) := by
  unfold stringBody
  rw [if_neg (by decide), if_pos rfl]
  simp only [if_neg he, hx, h, flush, List.nil_append]

theorem stringBody_plain {start : Nat} {c : Char} {tail more rest : List Char} (hquote : c ≠ '"')
    (hescape : c ≠ '\\') (hcontrol : ¬c.toNat < 0x20)
    (h : stringBody start none tail = .ok (more, rest)) :
    stringBody start none (c :: tail) = .ok (c :: more, rest) := by
  unfold stringBody
  simp only [if_neg hquote, if_neg hescape, if_neg hcontrol, h, flush, List.nil_append]

theorem addUnit_char (c : Char) : addUnit none c.toNat = ([c], none) := by
  simp only [addUnit, Quoted.not_isLow, Quoted.not_isHigh, Bool.false_eq_true, if_false, flush,
    Char.ofNat_toNat, List.nil_append]

/-- **One character is read back**, whichever way it is written. -/
theorem stringBody_encodeChar {start : Nat} {c : Char} {tail more rest : List Char}
    (htail : tail ≠ []) (h : stringBody start none tail = .ok (more, rest)) :
    stringBody start none (Quoted.encodeChar c ++ tail) = .ok (c :: more, rest) := by
  rcases Quoted.encodeChar_cases c with ⟨e, he, htext, hdecode⟩ |
    ⟨⟨hc, hcontrol, -⟩, htext⟩ | ⟨hsmall, htext⟩ | ⟨hlarge, htext⟩
  · rw [htext]
    exact stringBody_letter he hdecode h
  · rw [htext]
    refine stringBody_plain ?_ ?_ (Nat.not_lt_of_le hcontrol) h
    · rintro rfl
      exact hc (by decide)
    · rintro rfl
      exact hc (by decide)
  · have hstep := stringBody_escapeUnit start c.toNat none hsmall htail
      (by rw [addUnit_char]; exact h)
    rw [addUnit_char] at hstep
    rw [htext]
    exact hstep
  · obtain ⟨hhigh, hnotLow, hlow, hjoin⟩ := Quoted.units_of_large hlarge
    have hvalid : c.toNat < 0xD800 ∨ 0xDFFF < c.toNat ∧ c.toNat < 0x110000 := c.valid
    -- The first half waits for the second.
    have hfirst : addUnit none (Quoted.highUnit c.toNat) =
        ([], some (Quoted.highUnit c.toNat)) := by
      simp only [addUnit, hnotLow, hhigh, Bool.false_eq_true, if_false, if_true, flush]
    have hsecond : addUnit (some (Quoted.highUnit c.toNat)) (Quoted.lowUnit c.toNat) =
        ([c], none) := by
      simp only [addUnit, hlow, if_true, hjoin]
    have hlast := stringBody_escapeUnit start (Quoted.lowUnit c.toNat)
      (some (Quoted.highUnit c.toNat)) (by rw [Quoted.lowUnit]; omega) htail
      (by rw [hsecond]; exact h)
    rw [hsecond] at hlast
    have hboth := stringBody_escapeUnit start (Quoted.highUnit c.toNat) none
      (by rw [Quoted.highUnit]; omega) (List.cons_ne_nil _ _)
      (by rw [hfirst]; exact hlast)
    rw [hfirst] at hboth
    rw [htext, List.append_assoc]
    exact hboth

theorem stringBody_encode (start : Nat) (cs rest : List Char) :
    stringBody start none (Quoted.encode cs ++ '"' :: rest) = .ok (cs, rest) := by
  induction cs with
  | nil =>
    show stringBody start none ('"' :: rest) = _
    unfold stringBody
    exact if_pos rfl
  | cons c cs ih =>
    rw [Quoted.encode, List.append_assoc]
    exact stringBody_encodeChar (List.append_ne_nil_of_right_ne_nil _ (List.cons_ne_nil _ _)) ih

/-- **A quoted text is read back.** -/
theorem readString_quote (s : String) (rest : List Char) :
    readString (Quoted.encode s.toList ++ '"' :: rest) = .ok (s, rest) := by
  rw [readString, stringBody_encode]
  simp only [String.ofList_toList]

end Reader

end SourceDrift.Json
