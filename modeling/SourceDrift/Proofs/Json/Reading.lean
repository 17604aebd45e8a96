/-
What is written of a value is read back as the value.

The reader meets each token with the rest of the text behind it, so every lemma has the
rest as a variable: a piece that was written, then anything that cannot be taken for
more of it, reads as the piece and leaves the rest. Values go by induction on the value;
the fuel is bounded by the length of the text, which is what the reader starts with.

Three conditions are on the value. No object lists a key twice, since a text would keep the
last only, no integer is too long to be written, and no part lies deeper than the reader has
room for. The last is carried along as a bound on the levels: behind each bracket there is one
level less on either side.
-/
import SourceDrift.Proofs.Json.Members
import SourceDrift.Proofs.Json.Number
import SourceDrift.Proofs.Json.Quoted

set_option autoImplicit false

namespace SourceDrift.Json

open Reader

/-! ## Words and numbers -/

namespace Reader

/-- A word or number as the reader of values meets it: nothing else starts like it, and it
is read as what it stands for. -/
structure IsToken (text : List Char) (v : Json) : Prop where
  head : ∃ c tail, text = c :: tail ∧ (isBlank c = false ∧ c ≠ ']' ∧ c ≠ '\uFEFF') ∧ c ≠ '"' ∧
    c ≠ '[' ∧ c ≠ '\x7b'
  reads : ∀ rest, Number.EndsNumber rest → readScalar (text ++ rest) = .ok (v, rest)

theorem isToken_word {text : List Char} {v : Json} (c : Char) (tail : List Char)
    (htext : text = c :: tail)
    (hc : (isBlank c = false ∧ c ≠ ']' ∧ c ≠ '\uFEFF') ∧ c ≠ '"' ∧ c ≠ '[' ∧ c ≠ '\x7b')
    (hreads : ∀ rest, readWord? (text ++ rest) = some (v, rest)) : IsToken text v where
  head := ⟨c, tail, htext, hc⟩
  reads rest _ := by rw [readScalar, hreads]

theorem isToken_null : IsToken "null".toList .null :=
  isToken_word 'n' "ull".toList rfl (by decide) (fun _ => rfl)

theorem isToken_true : IsToken "true".toList (.bool true) :=
  isToken_word 't' "rue".toList rfl (by decide) (fun _ => rfl)

theorem isToken_false : IsToken "false".toList (.bool false) :=
  isToken_word 'f' "alse".toList rfl (by decide) (fun _ => rfl)

theorem isToken_nan : IsToken "NaN".toList (.float .nan) :=
  isToken_word 'N' "aN".toList rfl (by decide) (fun _ => rfl)

theorem isToken_infinity (negative : Bool) :
    IsToken (Number.ofBinary64 (.infinite negative)) (.float (.infinite negative)) := by
  cases negative with
  | true => exact isToken_word '-' "Infinity".toList rfl (by decide) (fun _ => rfl)
  | false => exact isToken_word 'I' "nfinity".toList rfl (by decide) (fun _ => rfl)

/-- No word starts like a number. -/
theorem readWord_of_digit {c : Char} (hc : Numeral.isDigit c = true) (cs : List Char) :
    readWord? (c :: cs) = none ∧ readWord? ('-' :: c :: cs) = none := by
  have hne : ∀ d : Char, Numeral.isDigit d = false → d ≠ c := by
    rintro d hd rfl
    rw [hc] at hd
    cases hd
  constructor
  · simp [readWord?, words, hne 'n' rfl, hne 't' rfl, hne 'f' rfl, hne 'N' rfl, hne 'I' rfl,
      hne '-' rfl]
  · simp [readWord?, words, hne 'I' rfl]

theorem isToken_number {l : Number.Literal} {v : Json} (hl : l.Proper) (hv : l.value = .ok v) :
    IsToken l.text v := by
  obtain ⟨c, cs, hcs⟩ := List.exists_cons_of_ne_nil hl.whole_ne
  have hc : Numeral.isDigit c = true := hl.whole_digits c (by rw [hcs]; exact List.mem_cons_self)
  have hne : ∀ d : Char, Numeral.isDigit d = false → c ≠ d := by
    rintro d hd rfl
    rw [hc] at hd
    cases hd
  have hblank : isBlank c = false := by
    simp [isBlank, hne ' ' rfl, hne '\t' rfl, hne '\n' rfl, hne '\r' rfl]
  -- A number starts with a digit, or with a sign and then one, and no word does.
  have htext : ∃ tail, l.text = c :: tail ∨ l.text = '-' :: c :: tail := by
    rw [Number.Literal.text, hcs]
    cases l.negative with
    | true => exact ⟨_, .inr rfl⟩
    | false => exact ⟨_, .inl rfl⟩
  obtain ⟨tail, htext | htext⟩ := htext
  · refine ⟨⟨c, tail, htext, ⟨hblank, hne _ rfl, hne _ rfl⟩, hne _ rfl, hne _ rfl, hne _ rfl⟩, ?_⟩
    intro rest hrest
    have hword : readWord? (l.text ++ rest) = none := by
      rw [htext]
      exact (readWord_of_digit hc _).1
    rw [readScalar, hword]
    simp only [Number.read_text hl hrest, hv]
  · refine ⟨⟨'-', c :: tail, htext, by decide⟩, ?_⟩
    intro rest hrest
    have hword : readWord? (l.text ++ rest) = none := by
      rw [htext]
      exact (readWord_of_digit hc _).2
    rw [readScalar, hword]
    simp only [Number.read_text hl hrest, hv]

theorem isToken_int {n : Int} (hn : Numeral.isShowable n = true) :
    IsToken (Numeral.ofInt n) (.int n) := by
  rw [← Number.text_literalOfInt]
  exact isToken_number (Number.proper_literalOfInt n) (Number.value_literalOfInt hn)

theorem isToken_float (x : Binary64) : IsToken (Number.ofBinary64 x) (.float x) := by
  cases x with
  | finite negative rank =>
    obtain ⟨l, hl, htext, hvalue⟩ := Number.exists_literal negative rank
    rw [← htext]
    exact isToken_number hl hvalue
  | infinite negative => exact isToken_infinity negative
  | nan => exact isToken_nan

theorem IsToken.readValue {text : List Char} {v : Json} (h : IsToken text v) {room fuel : Nat}
    {rest : List Char} (hrest : Number.EndsNumber rest) :
    readValue room (fuel + 1) (text ++ rest) = .ok (v, rest) := by
  have hreads := h.reads rest hrest
  obtain ⟨c, tail, rfl, -, hquote, hbracket, hbrace⟩ := h.head
  rw [List.cons_append] at hreads ⊢
  rw [Reader.readValue, if_neg hquote, if_neg hbracket, if_neg hbrace, hreads]

/-! ## Blanks between tokens -/

theorem skipBlanks_append {blanks rest : List Char} (hblanks : ∀ c ∈ blanks, isBlank c = true)
    (hrest : ∀ c, rest.head? = some c → isBlank c = false) :
    skipBlanks (blanks ++ rest) = rest := by
  rw [skipBlanks, List.dropWhile_append_of_pos hblanks]
  cases rest with
  | nil => rfl
  | cons c cs =>
    refine List.dropWhile_cons_of_neg ?_
    rw [hrest c rfl]
    exact Bool.false_ne_true

theorem skipBlanks_cons {blanks rest : List Char} {c : Char}
    (hblanks : ∀ c ∈ blanks, isBlank c = true) (hc : isBlank c = false) :
    skipBlanks (blanks ++ c :: rest) = c :: rest := by
  refine skipBlanks_append hblanks (fun d hd => ?_)
  rw [← Option.some.inj hd]
  exact hc

theorem endsNumber_cons {rest : List Char} {c : Char}
    (hc : Numeral.isDigit c = false ∧ c ≠ '.' ∧ c ≠ 'e' ∧ c ≠ 'E') :
    Number.EndsNumber (c :: rest) := by
  intro d hd
  rw [← Option.some.inj hd]
  exact hc

/-- Neither blanks nor what ends a list or object goes on with a number. -/
theorem endsNumber_blanks {blanks rest : List Char} {c : Char}
    (hblanks : ∀ c ∈ blanks, isBlank c = true)
    (hc : Numeral.isDigit c = false ∧ c ≠ '.' ∧ c ≠ 'e' ∧ c ≠ 'E') :
    Number.EndsNumber (blanks ++ c :: rest) := by
  cases blanks with
  | nil => exact endsNumber_cons hc
  | cons b bs =>
    refine endsNumber_cons ?_
    have hb := hblanks b List.mem_cons_self
    rw [isBlank, Bool.or_eq_true, Bool.or_eq_true, Bool.or_eq_true, beq_iff_eq, beq_iff_eq,
      beq_iff_eq, beq_iff_eq] at hb
    rcases hb with ((rfl | rfl) | rfl) | rfl <;> decide

end Reader

/-- Whether a writer leaves nothing but blanks. -/
structure Spacing.IsBlank (s : Spacing) : Prop where
  afterOpen : ∀ depth, ∀ c ∈ s.afterOpen depth, Reader.isBlank c = true
  afterComma : ∀ depth, ∀ c ∈ s.afterComma depth, Reader.isBlank c = true
  beforeClose : ∀ depth, ∀ c ∈ s.beforeClose depth, Reader.isBlank c = true
  afterColon : ∀ c ∈ s.afterColon, Reader.isBlank c = true

theorem Spacing.isBlank_indented : Spacing.indented.IsBlank := by
  have htabs : ∀ depth, ∀ c ∈ tabs depth, Reader.isBlank c = true := by
    intro depth c hc
    rcases List.mem_cons.1 hc with rfl | hc
    · rfl
    · rw [List.eq_of_mem_replicate hc]
      rfl
  refine ⟨htabs, htabs, htabs, fun c hc => ?_⟩
  rw [List.mem_singleton.1 hc]
  rfl

/-! ## Objects -/

namespace Reader

theorem set_append {key : String} {v : Json} {members : List Member}
    (hkey : key ∉ members.map (·.1)) : set key v members = members ++ [(key, v)] := by
  induction members with
  | nil => rfl
  | cons m rest ih =>
    obtain ⟨k, w⟩ := m
    rw [List.map_cons, List.mem_cons, not_or] at hkey
    rw [set, if_neg (Ne.symm hkey.1), ih hkey.2, List.cons_append]

/-- Members without a repeated key stay as they are. -/
theorem collect_eq_self {pairs : List Member} (hpairs : (pairs.map (·.1)).Nodup) :
    collect pairs = pairs := by
  have hfold : ∀ (before after : List Member), ((before ++ after).map (·.1)).Nodup →
      after.foldl (fun members m => set m.1 m.2 members) before = before ++ after := by
    intro before after
    induction after generalizing before with
    | nil => exact fun _ => (List.append_nil before).symm
    | cons m rest ih =>
      intro hnodup
      have hkey : m.1 ∉ before.map (·.1) := by
        rw [List.map_append, List.nodup_append] at hnodup
        exact fun hmem => hnodup.2.2 _ hmem m.1 (List.mem_map_of_mem List.mem_cons_self) rfl
      have hmove : before ++ m :: rest = (before ++ [m]) ++ rest := by
        rw [List.append_assoc, List.singleton_append]
      rw [List.foldl_cons, set_append hkey, hmove]
      exact ih _ (hmove ▸ hnodup)
  exact hfold [] pairs hpairs

end Reader

/-! ## Values -/

theorem isToken_write {s : Spacing} {depth : Nat} {v : Json} (hv : v.isWritable = true)
    (hstr : ∀ t, v ≠ .str t) (harr : ∀ items, v ≠ .arr items) (hobj : ∀ members, v ≠ .obj members) :
    IsToken (write s depth v) v := by
  cases v with
  | null => exact isToken_null
  | bool b =>
    cases b with
    | true => exact isToken_true
    | false => exact isToken_false
  | int n => exact isToken_int hv
  | float x => exact isToken_float x
  | str t => exact absurd rfl (hstr t)
  | arr items => exact absurd rfl (harr items)
  | obj members => exact absurd rfl (hobj members)

/-- No value starts with a blank, the end of a list, or the mark of an encoding. -/
theorem head_write (s : Spacing) (depth : Nat) {v : Json} (hv : v.isWritable = true) :
    ∃ c tail, write s depth v = c :: tail ∧ isBlank c = false ∧ c ≠ ']' ∧ c ≠ '\uFEFF' := by
  have htoken : IsToken (write s depth v) v →
      ∃ c tail, write s depth v = c :: tail ∧ isBlank c = false ∧ c ≠ ']' ∧ c ≠ '\uFEFF' := by
    intro h
    obtain ⟨c, tail, htext, hc, -⟩ := h.head
    exact ⟨c, tail, htext, hc⟩
  cases v with
  | null => exact htoken isToken_null
  | bool b => exact htoken (isToken_write hv (by simp) (by simp) (by simp))
  | int n => exact htoken (isToken_int hv)
  | float x => exact htoken (isToken_float x)
  | str t => exact ⟨'"', _, rfl, by decide⟩
  | arr items =>
    cases items with
    | nil => exact ⟨'[', _, rfl, by decide⟩
    | cons v rest => exact ⟨'[', _, rfl, by decide⟩
  | obj members =>
    cases members with
    | nil => exact ⟨'\x7b', _, rfl, by decide⟩
    | cons m rest => exact ⟨'\x7b', _, rfl, by decide⟩

theorem skipBlanks_write {s : Spacing} {depth : Nat} {blanks rest : List Char} {v : Json}
    (hblanks : ∀ c ∈ blanks, isBlank c = true) (hv : v.isWritable = true) :
    skipBlanks (blanks ++ (write s depth v ++ rest)) = write s depth v ++ rest := by
  obtain ⟨c, tail, htext, hc, -⟩ := head_write s depth hv
  rw [htext, List.cons_append]
  exact skipBlanks_cons hblanks hc

/-! ## Steps of the reader -/

namespace Reader

variable {room fuel : Nat}

/-- A list is read with one level of room less. -/
theorem readValue_list {blanks text tail : List Char} {items : List Json}
    (htext : skipBlanks (blanks ++ text) = text) (hhead : ∀ rest, text ≠ ']' :: rest)
    (h : readItems room fuel text = .ok (items, tail)) :
    readValue (room + 1) (fuel + 1) ('[' :: (blanks ++ text)) = .ok (.arr items, tail) := by
  rw [readValue, if_neg (by decide), if_pos rfl, if_neg (Nat.succ_ne_zero room), htext]
  split
  · next rest => exact absurd rfl (hhead rest)
  · rw [Nat.add_sub_cancel, h]

/-- An object is read with one level of room less. -/
theorem readValue_object {blanks text tail : List Char} {members : List Member}
    (hblanks : ∀ c ∈ blanks, isBlank c = true)
    (h : readMembers room fuel ('"' :: text) = .ok (members, tail)) :
    readValue (room + 1) (fuel + 1) ('\x7b' :: (blanks ++ '"' :: text)) =
      .ok (.obj (collect members), tail) := by
  rw [readValue, if_neg (by decide), if_neg (by decide), if_pos rfl,
    if_neg (Nat.succ_ne_zero room), skipBlanks_cons hblanks rfl]
  split
  · next heq => exact absurd (List.cons.inj heq).1 (by decide)
  · rw [Nat.add_sub_cancel, h]

theorem readItems_last {v : Json} {text blanks tail : List Char}
    (hblanks : ∀ c ∈ blanks, isBlank c = true)
    (h : readValue room fuel text = .ok (v, blanks ++ ']' :: tail)) :
    readItems room (fuel + 1) text = .ok ([v], tail) := by
  rw [readItems, h]
  dsimp only
  rw [skipBlanks_cons hblanks rfl]
  rfl

theorem readItems_next {v : Json} {items : List Json} {text blanks next tail : List Char}
    (hnext : skipBlanks (blanks ++ next) = next)
    (h : readValue room fuel text = .ok (v, ',' :: (blanks ++ next)))
    (hitems : readItems room fuel next = .ok (items, tail)) :
    readItems room (fuel + 1) text = .ok (v :: items, tail) := by
  have hcomma : skipBlanks (',' :: (blanks ++ next)) = ',' :: (blanks ++ next) := rfl
  simp only [readItems, h, hcomma, hnext, hitems]

/-- A member as it is written: its key, and its value behind the colon. -/
theorem readMembers_last {k : String} {v : Json} {colon text blanks tail : List Char}
    (htext : skipBlanks (colon ++ text) = text) (hblanks : ∀ c ∈ blanks, isBlank c = true)
    (h : readValue room fuel text = .ok (v, blanks ++ '\x7d' :: tail)) :
    readMembers room (fuel + 1) (Quoted.quote k ++ ':' :: (colon ++ text)) =
    .ok ([(k, v)], tail) := by
  have hcolon : skipBlanks (':' :: (colon ++ text)) = ':' :: (colon ++ text) := rfl
  have hclose : skipBlanks (blanks ++ '\x7d' :: tail) = '\x7d' :: tail :=
    skipBlanks_cons hblanks rfl
  simp only [Quoted.quote_append, readMembers, if_true, readString_quote, hcolon, htext, h,
    hclose]

theorem readMembers_next {k : String} {v : Json} {members : List Member}
    {colon text blanks next tail : List Char} (htext : skipBlanks (colon ++ text) = text)
    (hblanks : ∀ c ∈ blanks, isBlank c = true)
    (h : readValue room fuel text = .ok (v, ',' :: (blanks ++ '"' :: next)))
    (hmembers : readMembers room fuel ('"' :: next) = .ok (members, tail)) :
    readMembers room (fuel + 1) (Quoted.quote k ++ ':' :: (colon ++ text)) =
      .ok ((k, v) :: members, tail) := by
  have hcolon : skipBlanks (':' :: (colon ++ text)) = ':' :: (colon ++ text) := rfl
  have hcomma : skipBlanks (',' :: (blanks ++ '"' :: next)) = ',' :: (blanks ++ '"' :: next) := rfl
  have hnext : skipBlanks (blanks ++ '"' :: next) = '"' :: next := skipBlanks_cons hblanks rfl
  simp only [Quoted.quote_append, readMembers, if_true, readString_quote, hcolon, htext, h, hcomma,
    hnext, hmembers]

end Reader

variable {s : Spacing}

/-- What follows a value inside a list. -/
theorem endsNumber_items (s : Spacing) (depth : Nat) (items : List Json) {close tail : List Char}
    (hclose : ∀ c ∈ close, isBlank c = true) :
    Number.EndsNumber (writeItems s depth items ++ (close ++ ']' :: tail)) := by
  cases items with
  | nil => exact endsNumber_blanks hclose (by decide)
  | cons v rest => exact endsNumber_cons (by decide)

/-- What follows a value inside an object. -/
theorem endsNumber_members (s : Spacing) (depth : Nat) (members : List Member)
    {close tail : List Char} (hclose : ∀ c ∈ close, isBlank c = true) :
    Number.EndsNumber (writeMembers s depth members ++ (close ++ '\x7d' :: tail)) := by
  cases members with
  | nil => exact endsNumber_blanks hclose (by decide)
  | cons m rest => exact endsNumber_cons (by decide)

mutual
/-- **A written value is read back**, and what is behind it is left. -/
theorem readValue_write (hs : s.IsBlank) : ∀ (v : Json) (depth room fuel : Nat)
    (rest : List Char), v.hasUniqueKeys = true → v.isWritable = true → v.levels ≤ room →
    Number.EndsNumber rest → 2 * (write s depth v).length < fuel →
    readValue room fuel (write s depth v ++ rest) = .ok (v, rest)
  | .null, _, _, fuel + 1, _, _, _, _, hrest, _ => isToken_null.readValue hrest
  | .bool b, _, _, fuel + 1, _, _, hwritable, _, hrest, _ =>
    (isToken_write hwritable (by simp) (by simp) (by simp)).readValue hrest
  | .int _, _, _, fuel + 1, _, _, hwritable, _, hrest, _ => (isToken_int hwritable).readValue hrest
  | .float x, _, _, fuel + 1, _, _, _, _, hrest, _ => (isToken_float x).readValue hrest
  | .str t, _, _, fuel + 1, rest, _, _, _, _, _ => by
    rw [write, Quoted.quote_append, readValue, if_pos rfl, readString_quote]
  | .arr [], _, room, fuel + 1, rest, _, _, hroom, _, _ => by
    obtain ⟨room, rfl⟩ : ∃ less, room = less + 1 := ⟨room - 1, by rw [levels] at hroom; omega⟩
    rfl
  | .arr (v :: items), depth, room, fuel + 1, rest, hkeys, hwritable, hroom, _, hfuel => by
    rw [hasUniqueKeys, haveUniqueKeys, Bool.and_eq_true] at hkeys
    rw [isWritable, areWritable, Bool.and_eq_true] at hwritable
    rw [levels, itemLevels] at hroom
    simp only [write, List.cons_append, List.append_assoc, List.length_cons, List.length_append,
      List.nil_append] at hfuel ⊢
    obtain ⟨fuel, rfl⟩ : ∃ less, fuel = less + 1 := ⟨fuel - 1, by omega⟩
    obtain ⟨room, rfl⟩ : ∃ less, room = less + 1 := ⟨room - 1, by omega⟩
    have hvalue := readValue_write hs v (depth + 1) room fuel
      (writeItems s (depth + 1) items ++ (s.beforeClose depth ++ ']' :: rest)) hkeys.1 hwritable.1
      (by omega) (endsNumber_items s _ items (hs.beforeClose _)) (by omega)
    have hitems := readItems_write hs items (depth + 1) room fuel v _ _ rest (hs.beforeClose depth)
      hkeys.2 hwritable.2 (by omega) (by omega) hvalue
    refine readValue_list (skipBlanks_write (hs.afterOpen _) hwritable.1)
      (fun text heq => ?_) hitems
    obtain ⟨c, tail, htext, -, hclose, -⟩ := head_write s (depth + 1) hwritable.1
    rw [htext] at heq
    exact hclose (List.cons.inj heq).1
  | .obj [], _, room, fuel + 1, rest, _, _, hroom, _, _ => by
    obtain ⟨room, rfl⟩ : ∃ less, room = less + 1 := ⟨room - 1, by rw [levels] at hroom; omega⟩
    rfl
  | .obj ((k, v) :: members), depth, room, fuel + 1, rest, hkeys, hwritable, hroom, _, hfuel => by
    rw [hasUniqueKeys, membersHaveUniqueKeys, Bool.and_eq_true, Bool.and_eq_true] at hkeys
    rw [isWritable, membersWritable, Bool.and_eq_true] at hwritable
    rw [levels, memberLevels] at hroom
    simp only [write, List.cons_append, List.append_assoc, List.length_cons, List.length_append,
      List.nil_append] at hfuel ⊢
    obtain ⟨fuel, rfl⟩ : ∃ less, fuel = less + 1 := ⟨fuel - 1, by omega⟩
    obtain ⟨room, rfl⟩ : ∃ less, room = less + 1 := ⟨room - 1, by omega⟩
    have hvalue := readValue_write hs v (depth + 1) room fuel
      (writeMembers s (depth + 1) members ++ (s.beforeClose depth ++ '\x7d' :: rest)) hkeys.2.1
      hwritable.1 (by omega) (endsNumber_members s _ members (hs.beforeClose _)) (by omega)
    have hmembers := readMembers_write hs members (depth + 1) room fuel k v _ _ rest
      (hs.beforeClose depth) hkeys.2.2 hwritable.2 (by omega) (by omega)
      (skipBlanks_write hs.afterColon hwritable.1) hvalue
    rw [← collect_eq_self (of_decide_eq_true hkeys.1)]
    exact readValue_object (hs.afterOpen _) hmembers

/-- The items behind one that has been read, up to the end of the list. -/
theorem readItems_write (hs : s.IsBlank) : ∀ (items : List Json) (depth room fuel : Nat) (v : Json)
    (text close tail : List Char), (∀ c ∈ close, isBlank c = true) →
    haveUniqueKeys items = true → areWritable items = true → itemLevels items ≤ room →
    2 * (writeItems s depth items).length ≤ fuel →
    readValue room fuel text = .ok (v, writeItems s depth items ++ (close ++ ']' :: tail)) →
    readItems room (fuel + 1) text = .ok (v :: items, tail)
  | [], _, _, _, _, _, _, _, hclose, _, _, _, _, hvalue => readItems_last hclose hvalue
  | w :: rest, depth, room, fuel, v, text, close, tail, hclose, hkeys, hwritable, hroom, hfuel,
      hvalue => by
    rw [haveUniqueKeys, Bool.and_eq_true] at hkeys
    rw [areWritable, Bool.and_eq_true] at hwritable
    rw [itemLevels] at hroom
    simp only [writeItems, List.cons_append, List.append_assoc, List.length_cons,
      List.length_append] at hfuel hvalue
    obtain ⟨fuel, rfl⟩ : ∃ less, fuel = less + 1 := ⟨fuel - 1, by omega⟩
    have hnext := readValue_write hs w depth room fuel
      (writeItems s depth rest ++ (close ++ ']' :: tail)) hkeys.1 hwritable.1 (by omega)
      (endsNumber_items s _ rest hclose) (by omega)
    have hitems := readItems_write hs rest depth room fuel w _ close tail hclose hkeys.2 hwritable.2
      (by omega) (by omega) hnext
    exact readItems_next (skipBlanks_write (hs.afterComma _) hwritable.1) hvalue hitems

/-- The members behind one whose value has been read, up to the end of the object. -/
theorem readMembers_write (hs : s.IsBlank) : ∀ (members : List Member) (depth room fuel : Nat)
    (k : String) (v : Json) (text close tail : List Char), (∀ c ∈ close, isBlank c = true) →
    membersHaveUniqueKeys members = true → membersWritable members = true →
    memberLevels members ≤ room → 2 * (writeMembers s depth members).length ≤ fuel →
    skipBlanks (s.afterColon ++ text) = text →
    readValue room fuel text = .ok (v, writeMembers s depth members ++ (close ++ '\x7d' :: tail)) →
    readMembers room (fuel + 1) (Quoted.quote k ++ ':' :: (s.afterColon ++ text)) =
      .ok ((k, v) :: members, tail)
  | [], _, _, _, _, _, _, _, _, hclose, _, _, _, _, hcolon, hvalue =>
    readMembers_last hcolon hclose hvalue
  | (k', w) :: rest, depth, room, fuel, k, v, text, close, tail, hclose, hkeys, hwritable, hroom,
      hfuel, hcolon, hvalue => by
    rw [membersHaveUniqueKeys, Bool.and_eq_true] at hkeys
    rw [membersWritable, Bool.and_eq_true] at hwritable
    rw [memberLevels] at hroom
    simp only [writeMembers, List.cons_append, List.append_assoc, List.length_cons,
      List.length_append] at hfuel hvalue
    obtain ⟨fuel, rfl⟩ : ∃ less, fuel = less + 1 := ⟨fuel - 1, by omega⟩
    have hnext := readValue_write hs w depth room fuel
      (writeMembers s depth rest ++ (close ++ '\x7d' :: tail)) hkeys.1 hwritable.1 (by omega)
      (endsNumber_members s _ rest hclose) (by omega)
    have hmembers := readMembers_write hs rest depth room fuel k' w _ close tail hclose hkeys.2
      hwritable.2 (by omega) (by omega) (skipBlanks_write hs.afterColon hwritable.1) hnext
    exact readMembers_next hcolon (hs.afterComma _) hvalue hmembers
end

/-- **A written document is read back** where there is room for its levels. -/
theorem read_render (hs : s.IsBlank) {room : Nat} {v : Json} (hkeys : v.hasUniqueKeys = true)
    (hwritable : v.isWritable = true) (hroom : v.levels ≤ room) :
    read room (v.render s) = .ok v := by
  have hvalue := readValue_write hs v 0 room (2 * (write s 0 v).length + 2) [] hkeys hwritable hroom
    (fun c hc => by cases hc) (by omega)
  have hstart : skipBlanks ([] ++ (write s 0 v ++ [])) = write s 0 v ++ [] :=
    skipBlanks_write (fun c hc => by cases hc) hwritable
  obtain ⟨c, tail, htext, -, -, hmark⟩ := head_write s 0 hwritable
  rw [List.nil_append, List.append_nil] at hstart
  rw [List.append_nil] at hvalue
  have hdocument : readDocument room (write s 0 v) = .ok v := by
    unfold readDocument
    split
    · next heq =>
      rw [htext] at heq
      exact absurd (List.cons.inj heq).1 hmark
    · rw [hstart, hvalue]
      rfl
  rw [read, render, String.toList_ofList, hdocument]

/-! ## No room -/

/-- **More brackets than there is room for end the reading**, whether or not they are closed. The
induction is on the brackets: behind the first there is one fewer, and room for one fewer. -/
theorem readValue_brackets {n : Nat} {rest : List Char} {room fuel : Nat} (hn : room < n)
    (hfuel : 2 * n ≤ fuel) :
    ∃ left, Reader.readValue room fuel (List.replicate n '[' ++ rest) =
      .error ⟨.tooNested false, left⟩ := by
  induction n generalizing room fuel with
  | zero => omega
  | succ n ih =>
    obtain ⟨fuel, rfl⟩ : ∃ less, fuel = less + 2 := ⟨fuel - 2, by omega⟩
    rw [List.replicate_succ, List.cons_append, Reader.readValue, if_neg (by decide), if_pos rfl]
    by_cases hroom : room = 0
    · rw [if_pos hroom]
      exact ⟨_, rfl⟩
    · obtain ⟨n, rfl⟩ : ∃ less, n = less + 1 := ⟨n - 1, by omega⟩
      obtain ⟨left, hleft⟩ := @ih (room - 1) fuel (by omega) (by omega)
      refine ⟨left, ?_⟩
      have hblank : skipBlanks (List.replicate (n + 1) '[' ++ rest) =
          List.replicate (n + 1) '[' ++ rest := rfl
      rw [if_neg hroom, hblank]
      split
      · next heq => cases heq
      · rw [Reader.readItems, hleft]

/-- A text of brackets is nested too deep in any room for fewer. -/
theorem read_brackets {room n : Nat} (hn : room < n) :
    ∃ error, read room (String.ofList (List.replicate n '[')) = .error error ∧
      error.problem.isDepth = true := by
  obtain ⟨left, hvalue⟩ : ∃ left, Reader.readValue room (2 * n + 2) (List.replicate n '[' ++ []) =
      .error ⟨.tooNested false, left⟩ := readValue_brackets hn (by omega)
  obtain ⟨n, rfl⟩ : ∃ less, n = less + 1 := ⟨n - 1, by omega⟩
  have hblank : skipBlanks (List.replicate (n + 1) '[') = List.replicate (n + 1) '[' := rfl
  have hdocument : readDocument room
      (List.replicate (n + 1) '[') = .error ⟨.tooNested false, left⟩ := by
    unfold readDocument
    split
    · next heq => cases heq
    · rw [List.append_nil] at hvalue
      rw [List.length_replicate, hblank, hvalue]
  rw [read, String.toList_ofList, hdocument]
  exact ⟨_, rfl, rfl⟩

end SourceDrift.Json
