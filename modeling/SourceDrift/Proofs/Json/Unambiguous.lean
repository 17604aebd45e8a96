/-
Two values have two texts.

That a text is read back says so of the values that can be read. An integer of too many digits
cannot, and still has a text of its own, so the argument here does without the reader wherever
the length of an integer would matter: two texts that start alike are taken apart side by side.
A text opens as its value does, with a quote or a bracket or with neither. Where it is neither,
the value is a word or a number, and the text of a number has one literal only.

What is behind the two values is a variable on each side, as long as it would not go on with a
number; that the two agree there as well is what lets lists and objects be taken apart.
-/
import SourceDrift.Proofs.Json.Reading

set_option autoImplicit false

namespace SourceDrift.Json

open Reader

/-! ## Integers of any length -/

theorem head_ofInt (n : Int) : ∃ c cs, Numeral.isDigit c = true ∧
    (Numeral.ofInt n = c :: cs ∨ Numeral.ofInt n = '-' :: c :: cs) := by
  have hdigits : ∀ m, ∃ c cs, Numeral.isDigit c = true ∧ Numeral.digits m = c :: cs := by
    intro m
    obtain ⟨c, cs, hcs⟩ := List.exists_cons_of_ne_nil (Numeral.digits_ne_nil m)
    exact ⟨c, cs, Numeral.isDigit_of_mem_digits (by rw [hcs]; exact List.mem_cons_self), hcs⟩
  cases n with
  | ofNat m =>
    obtain ⟨c, cs, hc, hcs⟩ := hdigits m
    exact ⟨c, cs, hc, .inl hcs⟩
  | negSucc m =>
    obtain ⟨c, cs, hc, hcs⟩ := hdigits (m + 1)
    exact ⟨c, cs, hc, .inr (congrArg ('-' :: ·) hcs)⟩

/-- An integer has one literal, however many digits it takes. -/
theorem literalOfInt_injective {m n : Int} (h : Number.literalOfInt m = Number.literalOfInt n) :
    m = n := by
  have hsign : decide (m < 0) = decide (n < 0) := congrArg Number.Literal.negative h
  have hdigits : Numeral.digits m.natAbs = Numeral.digits n.natAbs :=
    congrArg Number.Literal.whole h
  have hvalue : m.natAbs = n.natAbs := by
    rw [← Numeral.value_digits m.natAbs, hdigits, Numeral.value_digits]
  rw [decide_eq_decide] at hsign
  omega

theorem ofInt_unambiguous {m n : Int} {r r' : List Char} (hr : Number.EndsNumber r)
    (hr' : Number.EndsNumber r') (h : Numeral.ofInt m ++ r = Numeral.ofInt n ++ r') :
    m = n ∧ r = r' := by
  rw [← Number.text_literalOfInt, ← Number.text_literalOfInt] at h
  have hfirst := Number.read_text (Number.proper_literalOfInt m) hr
  rw [h, Number.read_text (Number.proper_literalOfInt n) hr'] at hfirst
  obtain ⟨hliteral, hrest⟩ := Prod.mk.inj (Option.some.inj hfirst)
  exact ⟨(literalOfInt_injective hliteral).symm, hrest.symm⟩

/-- The text of an integer is read as nothing but an integer, if it is read. -/
theorem int_of_readScalar {n : Int} {v : Json} {r rest : List Char} (hr : Number.EndsNumber r)
    (h : readScalar (Numeral.ofInt n ++ r) = .ok (v, rest)) : ∃ m, v = .int m := by
  -- An integer is no word, and as a number it is the literal that it was written as.
  have hword : readWord? (Numeral.ofInt n ++ r) = none := by
    obtain ⟨c, cs, hc, htext | htext⟩ := head_ofInt n
    · rw [htext]
      exact (readWord_of_digit hc _).1
    · rw [htext]
      exact (readWord_of_digit hc _).2
  have hread : Number.read? (Numeral.ofInt n ++ r) = some (Number.literalOfInt n, r) := by
    rw [← Number.text_literalOfInt]
    exact Number.read_text (Number.proper_literalOfInt n) hr
  rw [readScalar, hword, hread] at h
  dsimp only at h
  cases hbounded : Numeral.boundedValue (Number.literalOfInt n).whole with
  | error e =>
    have hvalue : (Number.literalOfInt n).value = .error e := by
      rw [Number.Literal.value, hbounded]
      rfl
    rw [hvalue] at h
    cases h
  | ok m =>
    have hvalue : (Number.literalOfInt n).value =
        .ok (.int (if (Number.literalOfInt n).negative then -(m : Int) else m)) := by
      rw [Number.Literal.value, hbounded]
      rfl
    rw [hvalue] at h
    cases h
    exact ⟨_, rfl⟩

/-! ## How a text opens -/

/-- The character that opens a string, a list or an object, if it is one. -/
def opener? (c : Char) : Option Char :=
  if c = '"' ∨ c = '[' ∨ c = '\x7b' then some c else none

/-- The character that a value's text opens with, if it is a string, a list or an object. -/
def opening? : Json → Option Char
  | .str _ => some '"'
  | .arr _ => some '['
  | .obj _ => some '\x7b'
  | _ => none

variable {s : Spacing} {depth : Nat} {v w : Json}

/-- A value that opens with none of these, and is no integer, is a word or a number that is read
whatever it is. -/
theorem isToken_of_opening (hv : v.opening? = none) (hint : ∀ n, v ≠ .int n) :
    IsToken (write s depth v) v := by
  cases v with
  | null | bool _ | float _ => exact isToken_write rfl (by simp) (by simp) (by simp)
  | int n => exact absurd rfl (hint n)
  | str _ | arr _ | obj _ => cases hv

/-- **A text opens as its value does**, and with no end of a list. -/
theorem head_write_opening (s : Spacing) (depth : Nat) (v : Json) :
    ∃ c tail, write s depth v = c :: tail ∧ c ≠ ']' ∧ opener? c = v.opening? := by
  have htoken : IsToken (write s depth v) v → v.opening? = none →
      ∃ c tail, write s depth v = c :: tail ∧ c ≠ ']' ∧ opener? c = v.opening? := by
    intro h hv
    obtain ⟨c, tail, htext, ⟨-, hclose, -⟩, hquote, hlist, hobject⟩ := h.head
    refine ⟨c, tail, htext, hclose, ?_⟩
    rw [hv, opener?, if_neg (by simp [hquote, hlist, hobject])]
  -- Only texts, lists and objects have an opening of their own; all others are tokens.
  cases v with
  | null | bool _ | float _ => exact htoken (isToken_of_opening rfl (by simp)) rfl
  | int n =>
    obtain ⟨c, cs, hc, htext⟩ := head_ofInt n
    have hne : ∀ d : Char, Numeral.isDigit d = false → c ≠ d := by
      rintro d hd rfl
      rw [hc] at hd
      cases hd
    rcases htext with htext | htext
    · refine ⟨c, cs, htext, hne _ rfl, ?_⟩
      rw [opener?, if_neg (by simp [hne '"' rfl, hne '[' rfl, hne '\x7b' rfl])]
      rfl
    · exact ⟨'-', c :: cs, htext, by decide, rfl⟩
  | str t => exact ⟨'"', _, rfl, by decide, rfl⟩
  | arr items =>
    cases items with
    | nil => exact ⟨'[', _, rfl, by decide, rfl⟩
    | cons v rest => exact ⟨'[', _, rfl, by decide, rfl⟩
  | obj members =>
    cases members with
    | nil => exact ⟨'\x7b', _, rfl, by decide, rfl⟩
    | cons m rest => exact ⟨'\x7b', _, rfl, by decide, rfl⟩

theorem opening_eq_of_write {r r' : List Char} (h : write s depth v ++ r = write s depth w ++ r') :
    v.opening? = w.opening? := by
  obtain ⟨c, tail, htext, -, hc⟩ := head_write_opening s depth v
  obtain ⟨c', tail', htext', -, hc'⟩ := head_write_opening s depth w
  rw [htext, htext', List.cons_append, List.cons_append] at h
  rw [← hc, ← hc', (List.cons.inj h).1]

/-- No value's text is mistaken for the end of a list. -/
theorem write_ne_close {r r' : List Char} : write s depth v ++ r ≠ ']' :: r' := by
  intro h
  obtain ⟨c, tail, htext, hclose, -⟩ := head_write_opening s depth v
  rw [htext, List.cons_append] at h
  exact hclose (List.cons.inj h).1

/-! ## Taking two texts apart -/

theorem scalar_unambiguous {r r' : List Char} (hv : v.opening? = none) (hw : w.opening? = none)
    (hr : Number.EndsNumber r) (hr' : Number.EndsNumber r')
    (h : write s depth v ++ r = write s depth w ++ r') : v = w ∧ r = r' := by
  by_cases hint : ∃ m, v = .int m
  · obtain ⟨m, rfl⟩ := hint
    by_cases hother : ∃ n, w = .int n
    · obtain ⟨n, rfl⟩ := hother
      obtain ⟨rfl, hrest⟩ := ofInt_unambiguous hr hr' h
      exact ⟨rfl, hrest⟩
    · have htoken : IsToken (write s depth w) w := isToken_of_opening hw (not_exists.1 hother)
      have hreads := htoken.reads r' hr'
      rw [← h] at hreads
      exact absurd (int_of_readScalar hr hreads) hother
  · have htoken : IsToken (write s depth v) v := isToken_of_opening hv (not_exists.1 hint)
    have hreads := htoken.reads r hr
    rw [h] at hreads
    by_cases hother : ∃ n, w = .int n
    · obtain ⟨n, rfl⟩ := hother
      exact absurd (int_of_readScalar hr' hreads) hint
    · -- Both are read, from one text.
      rw [(isToken_of_opening hw (not_exists.1 hother)).reads r' hr'] at hreads
      obtain ⟨hvalue, hrest⟩ := Prod.mk.inj (Except.ok.inj hreads)
      exact ⟨hvalue.symm, hrest.symm⟩

theorem quote_unambiguous {t u : String} {r r' : List Char}
    (h : Quoted.quote t ++ r = Quoted.quote u ++ r') : t = u ∧ r = r' := by
  rw [Quoted.quote_append, Quoted.quote_append] at h
  have hread := readString_quote t r
  rw [(List.cons.inj h).2, readString_quote] at hread
  obtain ⟨htext, hrest⟩ := Prod.mk.inj (Except.ok.inj hread)
  exact ⟨htext.symm, hrest.symm⟩

theorem endsNumber_compact_items (depth : Nat) (items : List Json) (r : List Char) :
    Number.EndsNumber (writeItems .compact depth items ++ ']' :: r) := by
  have hblanks : ∀ c ∈ ([] : List Char), isBlank c = true := fun _ hc => absurd hc List.not_mem_nil
  exact endsNumber_items .compact depth items hblanks

theorem endsNumber_compact_members (depth : Nat) (members : List Member) (r : List Char) :
    Number.EndsNumber (writeMembers .compact depth members ++ '\x7d' :: r) := by
  have hblanks : ∀ c ∈ ([] : List Char), isBlank c = true := fun _ hc => absurd hc List.not_mem_nil
  exact endsNumber_members .compact depth members hblanks

/-- The items, or the members, of what is in brackets: the first of them, and then those that
each have a comma before them. -/
theorem write_compact_arr (depth : Nat) (v : Json) (rest : List Json) (r : List Char) :
    write .compact depth (.arr (v :: rest)) ++ r =
      '[' :: (write .compact (depth + 1) v ++
        (writeItems .compact (depth + 1) rest ++ ']' :: r)) := by
  simp only [write, Spacing.compact, List.cons_append, List.append_assoc, List.nil_append]

theorem write_compact_obj (depth : Nat) (k : String) (v : Json) (rest : List Member)
    (r : List Char) :
    write .compact depth (.obj ((k, v) :: rest)) ++ r =
      '\x7b' :: (Quoted.quote k ++ ':' :: (write .compact (depth + 1) v ++
        (writeMembers .compact (depth + 1) rest ++ '\x7d' :: r))) := by
  simp only [write, Spacing.compact, List.cons_append, List.append_assoc, List.nil_append]

theorem writeItems_compact_cons (depth : Nat) (v : Json) (rest : List Json) (r : List Char) :
    writeItems .compact depth (v :: rest) ++ r =
      ',' :: (write .compact depth v ++ (writeItems .compact depth rest ++ r)) := by
  simp only [writeItems, Spacing.compact, List.cons_append, List.append_assoc, List.nil_append]

theorem writeMembers_compact_cons (depth : Nat) (k : String) (v : Json) (rest : List Member)
    (r : List Char) :
    writeMembers .compact depth ((k, v) :: rest) ++ r =
      ',' :: (Quoted.quote k ++ ':' :: (write .compact depth v ++
        (writeMembers .compact depth rest ++ r))) := by
  simp only [writeMembers, Spacing.compact, List.cons_append, List.append_assoc, List.nil_append]

mutual
/-- **Values without blanks can be told apart where they stand**: two that start one text are
the same, and so is what is behind them. -/
theorem write_unambiguous : ∀ (v w : Json) (depth : Nat) {r r' : List Char},
    Number.EndsNumber r → Number.EndsNumber r' →
    write .compact depth v ++ r = write .compact depth w ++ r' → v = w ∧ r = r'
  | v, w, depth, r, r', hr, hr', h => by
    have hopening := opening_eq_of_write h
    cases v with
    | null | bool _ | int _ | float _ => exact scalar_unambiguous rfl hopening.symm hr hr' h
    | str t =>
      cases w with
      | str u =>
        obtain ⟨rfl, hrest⟩ := quote_unambiguous h
        exact ⟨rfl, hrest⟩
      | null | bool _ | int _ | float _ | arr _ | obj _ => cases hopening
    | arr items =>
      cases w with
      | arr others =>
        obtain ⟨rfl, hrest⟩ := list_unambiguous items others depth h
        exact ⟨rfl, hrest⟩
      | null | bool _ | int _ | float _ | str _ | obj _ => cases hopening
    | obj members =>
      cases w with
      | obj others =>
        obtain ⟨rfl, hrest⟩ := object_unambiguous members others depth h
        exact ⟨rfl, hrest⟩
      | null | bool _ | int _ | float _ | str _ | arr _ => cases hopening

theorem list_unambiguous : ∀ (items others : List Json) (depth : Nat) {r r' : List Char},
    write .compact depth (.arr items) ++ r = write .compact depth (.arr others) ++ r' →
    items = others ∧ r = r'
  | [], [], _, _, _, h => ⟨rfl, List.append_cancel_left h⟩
  | [], w :: others, depth, _, _, h => by
    rw [write_compact_arr] at h
    exact absurd (List.cons.inj h).2.symm write_ne_close
  | v :: items, [], _, _, _, h => by
    rw [write_compact_arr] at h
    exact absurd (List.cons.inj h).2 write_ne_close
  | v :: items, w :: others, depth, r, r', h => by
    rw [write_compact_arr, write_compact_arr] at h
    obtain ⟨rfl, hvalue⟩ := write_unambiguous v w (depth + 1) (endsNumber_compact_items _ _ _)
      (endsNumber_compact_items _ _ _) (List.cons.inj h).2
    obtain ⟨rfl, hrest⟩ := items_unambiguous items others (depth + 1) hvalue
    exact ⟨rfl, hrest⟩

theorem items_unambiguous : ∀ (items others : List Json) (depth : Nat) {r r' : List Char},
    writeItems .compact depth items ++ ']' :: r = writeItems .compact depth others ++ ']' :: r' →
    items = others ∧ r = r'
  | [], [], _, _, _, h => ⟨rfl, (List.cons.inj h).2⟩
  | [], w :: others, _, _, _, h => by
    rw [writeItems_compact_cons] at h
    exact absurd (List.cons.inj h).1 (by decide)
  | v :: items, [], _, _, _, h => by
    rw [writeItems_compact_cons] at h
    exact absurd (List.cons.inj h).1 (by decide)
  | v :: items, w :: others, depth, _, _, h => by
    rw [writeItems_compact_cons, writeItems_compact_cons] at h
    obtain ⟨rfl, hvalue⟩ := write_unambiguous v w depth (endsNumber_compact_items _ _ _)
      (endsNumber_compact_items _ _ _) (List.cons.inj h).2
    obtain ⟨rfl, hrest⟩ := items_unambiguous items others depth hvalue
    exact ⟨rfl, hrest⟩

theorem object_unambiguous : ∀ (members others : List Member) (depth : Nat) {r r' : List Char},
    write .compact depth (.obj members) ++ r = write .compact depth (.obj others) ++ r' →
    members = others ∧ r = r'
  | [], [], _, _, _, h => ⟨rfl, List.append_cancel_left h⟩
  | [], (k, v) :: others, _, _, _, h => by
    rw [write_compact_obj, Quoted.quote_append] at h
    exact absurd (List.cons.inj (List.cons.inj h).2).1 (by decide)
  | (k, v) :: members, [], _, _, _, h => by
    rw [write_compact_obj, Quoted.quote_append] at h
    exact absurd (List.cons.inj (List.cons.inj h).2).1 (by decide)
  | (k, v) :: members, (k', w) :: others, depth, _, _, h => by
    rw [write_compact_obj, write_compact_obj] at h
    obtain ⟨rfl, hkey⟩ := quote_unambiguous (List.cons.inj h).2
    obtain ⟨rfl, hvalue⟩ := write_unambiguous v w (depth + 1) (endsNumber_compact_members _ _ _)
      (endsNumber_compact_members _ _ _) (List.cons.inj hkey).2
    obtain ⟨rfl, hrest⟩ := members_unambiguous members others (depth + 1) hvalue
    exact ⟨rfl, hrest⟩

theorem members_unambiguous : ∀ (members others : List Member) (depth : Nat)
    {r r' : List Char},
    writeMembers .compact depth members ++ '\x7d' :: r =
      writeMembers .compact depth others ++ '\x7d' :: r' →
    members = others ∧ r = r'
  | [], [], _, _, _, h => ⟨rfl, (List.cons.inj h).2⟩
  | [], (k, v) :: others, _, _, _, h => by
    rw [writeMembers_compact_cons] at h
    exact absurd (List.cons.inj h).1 (by decide)
  | (k, v) :: members, [], _, _, _, h => by
    rw [writeMembers_compact_cons] at h
    exact absurd (List.cons.inj h).1 (by decide)
  | (k, v) :: members, (k', w) :: others, depth, _, _, h => by
    rw [writeMembers_compact_cons, writeMembers_compact_cons] at h
    obtain ⟨rfl, hkey⟩ := quote_unambiguous (List.cons.inj h).2
    obtain ⟨rfl, hvalue⟩ := write_unambiguous v w depth (endsNumber_compact_members _ _ _)
      (endsNumber_compact_members _ _ _) (List.cons.inj hkey).2
    obtain ⟨rfl, hrest⟩ := members_unambiguous members others depth hvalue
    exact ⟨rfl, hrest⟩
end

/-! ## Texts without blanks -/

/-- **Two values have two texts**, numbers of any length and numbers that no document can hold
included. -/
theorem render_compact_injective {v w : Json} (h : v.render .compact = w.render .compact) :
    v = w := by
  have htext : write .compact 0 v ++ [] = write .compact 0 w ++ [] := by
    rw [List.append_nil, List.append_nil]
    exact String.ofList_injective h
  have hend : Number.EndsNumber [] := fun c hc => absurd hc (Option.some_ne_none c).symm
  exact (write_unambiguous v w 0 hend hend htext).1

/-- **A canonical form says what a value is up to the order of its keys**, no less and no more. -/
theorem canonical_eq_iff {v w : Json} : v.canonical = w.canonical ↔ v.sortKeys = w.sortKeys :=
  ⟨fun h => render_compact_injective h, fun h => congrArg (render .compact) h⟩

end SourceDrift.Json
