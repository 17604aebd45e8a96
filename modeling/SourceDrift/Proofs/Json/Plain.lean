/-
Written documents are plain text.

Whatever a value holds, what is written of it is ASCII without a carriage return, so that
it goes through a text file unchanged.
-/
import SourceDrift.Proofs.Json.Reading
import SourceDrift.Proofs.Text.Utf8

set_option autoImplicit false

namespace SourceDrift.Json

open Utf8

/-! ## Pieces -/

theorem isPlain_nil : ∀ c ∈ ([] : List Char), IsPlain c := fun _ hc => absurd hc List.not_mem_nil

theorem isPlain_append {xs ys : List Char} (hxs : ∀ c ∈ xs, IsPlain c) (hys : ∀ c ∈ ys, IsPlain c) :
    ∀ c ∈ xs ++ ys, IsPlain c :=
  fun c hc => (List.mem_append.1 hc).elim (hxs c) (hys c)

theorem isPlain_cons {x : Char} {xs : List Char} (hx : IsPlain x) (hxs : ∀ c ∈ xs, IsPlain c) :
    ∀ c ∈ x :: xs, IsPlain c :=
  List.forall_mem_cons.2 ⟨hx, hxs⟩

theorem isPlain_of_all {cs : List Char} (h : cs.all (fun c => decide (IsPlain c)) = true) :
    ∀ c ∈ cs, IsPlain c :=
  fun c hc => of_decide_eq_true (List.all_eq_true.1 h c hc)

theorem isPlain_of_isDigit {c : Char} (hc : Numeral.isDigit c = true) : IsPlain c := by
  rw [Numeral.isDigit, Bool.and_eq_true, decide_eq_true_iff, decide_eq_true_iff] at hc
  have hhigh : c.toNat ≤ '9'.toNat := hc.2
  have hnine : '9'.toNat = 57 := rfl
  refine ⟨by omega, ?_⟩
  rintro rfl
  exact absurd hc.1 (by decide)

theorem isPlain_hexDigit : ∀ n < 16, IsPlain (Numeral.hexDigit n) := by decide

theorem isPlain_hexDigits (width n : Nat) : ∀ c ∈ Numeral.hexDigits width n, IsPlain c :=
  Numeral.forall_mem_hexDigits isPlain_hexDigit width n

/-! ## Numbers and strings -/

theorem isPlain_literal {l : Number.Literal} (hl : l.Proper) : ∀ c ∈ l.text, IsPlain c :=
  Number.Literal.forall_mem_text hl (fun _ => isPlain_of_isDigit) (isPlain_of_all (by decide))

theorem isPlain_ofInt (n : Int) : ∀ c ∈ Numeral.ofInt n, IsPlain c := by
  rw [← Number.text_literalOfInt]
  exact isPlain_literal (Number.proper_literalOfInt n)

theorem isPlain_ofBinary64 (x : Binary64) : ∀ c ∈ Number.ofBinary64 x, IsPlain c := by
  cases x with
  | finite negative rank =>
    obtain ⟨l, hl, htext, -⟩ := Number.exists_literal negative rank
    rw [← htext]
    exact isPlain_literal hl
  | infinite negative =>
    cases negative <;> exact isPlain_of_all (by decide)
  | nan => exact isPlain_of_all (by decide)

theorem isPlain_of_decodeLetter {e x : Char} (h : Quoted.decodeLetter? e = some x) : IsPlain e := by
  by_cases hmem : e ∈ ['"', '\\', '/', 'b', 'f', 'n', 'r', 't']
  · exact isPlain_of_all (by decide) e hmem
  · simp only [List.mem_cons, List.not_mem_nil, or_false, not_or] at hmem
    obtain ⟨hquote, hslash, hsolidus, hb, hf, hn, hr, ht⟩ := hmem
    rw [Quoted.decodeLetter?, if_neg hquote, if_neg hslash, if_neg hsolidus, if_neg hb, if_neg hf,
      if_neg hn, if_neg hr, if_neg ht] at h
    cases h

theorem isPlain_escapeUnit (unit : Nat) : ∀ c ∈ Quoted.escapeUnit unit, IsPlain c :=
  isPlain_cons (by decide) (isPlain_cons (by decide) (isPlain_hexDigits 4 unit))

theorem isPlain_encodeChar (c : Char) : ∀ x ∈ Quoted.encodeChar c, IsPlain x := by
  rcases Quoted.encodeChar_cases c with ⟨e, -, htext, hdecode⟩ | ⟨⟨-, hcontrol, hvisible⟩, htext⟩ |
    ⟨-, htext⟩ | ⟨-, htext⟩
  · rw [htext]
    exact isPlain_cons (by decide) (isPlain_cons (isPlain_of_decodeLetter hdecode)
      isPlain_nil)
  · rw [htext]
    refine isPlain_cons ⟨by omega, ?_⟩ isPlain_nil
    rintro rfl
    exact absurd hcontrol (by decide)
  · rw [htext]
    exact isPlain_escapeUnit _
  · rw [htext]
    exact isPlain_append (isPlain_escapeUnit _) (isPlain_escapeUnit _)

theorem isPlain_quote (s : String) : ∀ c ∈ Quoted.quote s, IsPlain c := by
  have hencode : ∀ cs : List Char, ∀ c ∈ Quoted.encode cs, IsPlain c := by
    intro cs
    induction cs with
    | nil => exact isPlain_nil
    | cons c rest ih => exact isPlain_append (isPlain_encodeChar c) ih
  exact isPlain_cons (by decide) (isPlain_append (hencode _) (isPlain_of_all (by decide)))

/-! ## Values -/

/-- Whether a writer leaves only plain characters between the tokens. -/
structure Spacing.IsPlain (s : Spacing) : Prop where
  afterOpen : ∀ depth, ∀ c ∈ s.afterOpen depth, Utf8.IsPlain c
  afterComma : ∀ depth, ∀ c ∈ s.afterComma depth, Utf8.IsPlain c
  beforeClose : ∀ depth, ∀ c ∈ s.beforeClose depth, Utf8.IsPlain c
  afterColon : ∀ c ∈ s.afterColon, Utf8.IsPlain c

theorem Spacing.isPlain_indented : Spacing.indented.IsPlain := by
  have htabs : ∀ depth, ∀ c ∈ tabs depth, Utf8.IsPlain c := by
    intro depth
    refine isPlain_cons (by decide) (fun c hc => ?_)
    rw [List.eq_of_mem_replicate hc]
    decide
  exact ⟨htabs, htabs, htabs, isPlain_of_all (by decide)⟩

variable {s : Spacing}

theorem isPlain_words : ∀ text ∈ Reader.words.map (·.1), ∀ c ∈ text, Utf8.IsPlain c := by
  have hall : (Reader.words.map (·.1)).all
      (fun text => text.all fun c => decide (Utf8.IsPlain c)) = true := by decide
  exact fun text htext => isPlain_of_all (List.all_eq_true.1 hall text htext)

mutual
theorem isPlain_write (hs : s.IsPlain) :
    ∀ (v : Json) (depth : Nat), ∀ c ∈ write s depth v, Utf8.IsPlain c
  | .null, _ => isPlain_words "null".toList (by decide)
  | .bool true, _ => isPlain_words "true".toList (by decide)
  | .bool false, _ => isPlain_words "false".toList (by decide)
  | .int n, _ => isPlain_ofInt n
  | .float x, _ => isPlain_ofBinary64 x
  | .str t, _ => isPlain_quote t
  | .arr [], _ => isPlain_cons (by decide) (isPlain_cons (by decide) isPlain_nil)
  | .arr (v :: items), depth => by
    rw [write]
    exact isPlain_append (isPlain_append (isPlain_append (isPlain_append
      (isPlain_cons (by decide) (hs.afterOpen _)) (isPlain_write hs v _))
      (isPlain_writeItems hs items _)) (hs.beforeClose _)) (isPlain_cons (by decide) isPlain_nil)
  | .obj [], _ => isPlain_cons (by decide) (isPlain_cons (by decide) isPlain_nil)
  | .obj ((k, v) :: members), depth => by
    simp only [write, List.cons_append, List.append_assoc]
    exact isPlain_cons (by decide)
      (isPlain_append (hs.afterOpen _) (isPlain_append (isPlain_quote k)
      (isPlain_cons (by decide) (isPlain_append hs.afterColon (isPlain_append (isPlain_write hs v _)
        (isPlain_append (isPlain_writeMembers hs members _) (isPlain_append (hs.beforeClose _)
          (isPlain_cons (by decide) isPlain_nil))))))))

theorem isPlain_writeItems (hs : s.IsPlain) :
    ∀ (items : List Json) (depth : Nat), ∀ c ∈ writeItems s depth items, Utf8.IsPlain c
  | [], _ => isPlain_nil
  | v :: rest, depth => by
    rw [writeItems]
    exact isPlain_append (isPlain_append (isPlain_cons (by decide) (hs.afterComma _))
      (isPlain_write hs v _)) (isPlain_writeItems hs rest _)

theorem isPlain_writeMembers (hs : s.IsPlain) :
    ∀ (members : List Member) (depth : Nat), ∀ c ∈ writeMembers s depth members, Utf8.IsPlain c
  | [], _ => isPlain_nil
  | (k, v) :: rest, depth => by
    simp only [writeMembers, List.cons_append, List.append_assoc]
    exact isPlain_cons (by decide) (isPlain_append (hs.afterComma _)
      (isPlain_append (isPlain_quote k) (isPlain_cons (by decide) (isPlain_append hs.afterColon
        (isPlain_append (isPlain_write hs v _) (isPlain_writeMembers hs rest _))))))
end

/-- **A written document comes back from its bytes.** -/
theorem decodeText_render (hs : s.IsPlain) (v : Json) :
    decodeText (Utf8.encode (v.render s)) = .ok (v.render s) := by
  refine decodeText_encode (fun c hc => ?_)
  rw [render, String.toList_ofList] at hc
  exact isPlain_write hs v 0 c hc

end SourceDrift.Json
