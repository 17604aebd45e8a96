/-
What a written document says outside its strings.

A string may hold any word; a word outside a string is a value. So whether a text names a
number that no document can hold is a question about what is left of it once its strings
are read over. `unquoted` reads over them, by the rule that a quote closes a string unless
a backslash stands before it, and nothing that is written inside quotes closes them early.
-/
import SourceDrift.Proofs.Json.Reading

set_option autoImplicit false

namespace SourceDrift.Json

/-! ## Reading over strings -/

/-- Where a character stands: outside the strings, inside one, or right behind a
backslash inside one. -/
inductive Standing where
  | outside
  | inside
  | escaped

/-- The characters outside the strings of a text, the quotes left out as well. -/
def unquoted : Standing → List Char → List Char
  | _, [] => []
  | .outside, c :: rest => if c = '"' then unquoted .inside rest else c :: unquoted .outside rest
  | .inside, c :: rest =>
    if c = '"' then unquoted .outside rest
    else if c = '\\' then unquoted .escaped rest
    else unquoted .inside rest
  | .escaped, _ :: rest => unquoted .inside rest

theorem unquoted_inside_append {cs : List Char} (hcs : ∀ c ∈ cs, c ≠ '"' ∧ c ≠ '\\')
    (rest : List Char) : unquoted .inside (cs ++ rest) = unquoted .inside rest := by
  induction cs with
  | nil => rfl
  | cons c cs ih =>
    rw [List.forall_mem_cons] at hcs
    obtain ⟨⟨hquote, hescape⟩, hcs⟩ := hcs
    rw [List.cons_append, unquoted, if_neg hquote, if_neg hescape]
    exact ih hcs

theorem unquoted_inside_escapeUnit (unit : Nat) (rest : List Char) :
    unquoted .inside (Quoted.escapeUnit unit ++ rest) = unquoted .inside rest := by
  have hdigits : ∀ c ∈ Numeral.hexDigits 4 unit, c ≠ '"' ∧ c ≠ '\\' :=
    Numeral.forall_mem_hexDigits (by decide) 4 unit
  rw [Quoted.escapeUnit, List.cons_append, List.cons_append, unquoted, if_neg (by decide),
    if_pos rfl, unquoted]
  exact unquoted_inside_append hdigits rest

/-- **No character closes the string it is written in**, a quote included. -/
theorem unquoted_inside_encodeChar (c : Char) (rest : List Char) :
    unquoted .inside (Quoted.encodeChar c ++ rest) = unquoted .inside rest := by
  rcases Quoted.encodeChar_cases c with ⟨e, -, htext, -⟩ | ⟨⟨hc, -, -⟩, htext⟩ | ⟨-, htext⟩ |
    ⟨-, htext⟩
  · rw [htext, List.cons_append, List.cons_append, List.nil_append, unquoted,
      if_neg (by decide), if_pos rfl, unquoted]
  · rw [htext]
    refine unquoted_inside_append (fun x hx => ?_) rest
    rw [List.mem_singleton.1 hx]
    constructor
    · rintro rfl
      exact hc (by decide)
    · rintro rfl
      exact hc (by decide)
  · rw [htext]
    exact unquoted_inside_escapeUnit _ rest
  · rw [htext, List.append_assoc, unquoted_inside_escapeUnit, unquoted_inside_escapeUnit]

/-- **A written string is read over as a whole.** -/
theorem unquoted_quote (t : String) (rest : List Char) :
    unquoted .outside (Quoted.quote t ++ rest) = unquoted .outside rest := by
  have hencode : ∀ cs : List Char, unquoted .inside (Quoted.encode cs ++ '"' :: rest) =
      unquoted .outside rest := by
    intro cs
    induction cs with
    | nil => rw [Quoted.encode, List.nil_append, unquoted, if_pos rfl]
    | cons c cs ih => rw [Quoted.encode, List.append_assoc, unquoted_inside_encodeChar, ih]
  rw [Quoted.quote_append, unquoted, if_pos rfl]
  exact hencode _

/-! ## Finite values -/

mutual
/-- Whether every number of a value is one that a document can hold. -/
def isFinite : Json → Bool
  | .float x => x.isFinite
  | .arr items => areFinite items
  | .obj members => membersFinite members
  | _ => true

/-- Whether every number of the items is one that a document can hold. -/
def areFinite : List Json → Bool
  | [] => true
  | v :: rest => isFinite v && areFinite rest

/-- Whether every number of the members' values is one that a document can hold. -/
def membersFinite : List Member → Bool
  | [] => true
  | (_, v) :: rest => isFinite v && membersFinite rest
end

theorem areFinite_iff {items : List Json} :
    areFinite items = true ↔ ∀ v ∈ items, v.isFinite = true := by
  induction items with
  | nil => exact ⟨fun _ _ hv => absurd hv List.not_mem_nil, fun _ => rfl⟩
  | cons v rest ih => rw [areFinite, Bool.and_eq_true, ih, List.forall_mem_cons]

mutual
/-- **What is dropped leaves finite numbers only.** -/
theorem isFinite_dropNonFinite : ∀ v : Json, v.dropNonFinite.isFinite = true
  | .null => rfl
  | .bool _ => rfl
  | .int _ => rfl
  | .float x => by
    rw [dropNonFinite]
    split
    · next hfinite => rw [isFinite, hfinite]
    · rfl
  | .str _ => rfl
  | .arr items => by rw [dropNonFinite, isFinite, areFinite_dropNonFinite items]
  | .obj members => by rw [dropNonFinite, isFinite, membersFinite_dropNonFinite members]

theorem areFinite_dropNonFinite : ∀ items : List Json, areFinite (dropNonFiniteItems items) = true
  | [] => rfl
  | v :: rest => by
    rw [dropNonFiniteItems, areFinite, isFinite_dropNonFinite v, areFinite_dropNonFinite rest]
    rfl

theorem membersFinite_dropNonFinite :
    ∀ members : List Member, membersFinite (dropNonFiniteMembers members) = true
  | [] => rfl
  | (k, v) :: rest => by
    rw [dropNonFiniteMembers, membersFinite, isFinite_dropNonFinite v,
      membersFinite_dropNonFinite rest]
    rfl
end

mutual
/-- **Where every number is finite nothing is dropped.** -/
theorem dropNonFinite_eq_self : ∀ {v : Json}, v.isFinite = true → v.dropNonFinite = v
  | .null, _ | .bool _, _ | .int _, _ | .str _, _ => rfl
  | .float x, h => by
    rw [isFinite] at h
    rw [dropNonFinite, if_pos h]
  | .arr items, h => by
    rw [isFinite] at h
    rw [dropNonFinite, dropNonFiniteItems_eq_self h]
  | .obj members, h => by
    rw [isFinite] at h
    rw [dropNonFinite, dropNonFiniteMembers_eq_self h]

theorem dropNonFiniteItems_eq_self : ∀ {items : List Json}, areFinite items = true →
    dropNonFiniteItems items = items
  | [], _ => rfl
  | v :: rest, h => by
    rw [areFinite, Bool.and_eq_true] at h
    rw [dropNonFiniteItems, dropNonFinite_eq_self h.1, dropNonFiniteItems_eq_self h.2]

theorem dropNonFiniteMembers_eq_self : ∀ {members : List Member}, membersFinite members = true →
    dropNonFiniteMembers members = members
  | [], _ => rfl
  | (k, v) :: rest, h => by
    rw [membersFinite, Bool.and_eq_true] at h
    rw [dropNonFiniteMembers, dropNonFinite_eq_self h.1, dropNonFiniteMembers_eq_self h.2]
end

theorem membersFinite_iff {members : List Member} :
    membersFinite members = true ↔ ∀ m ∈ members, m.2.isFinite = true := by
  induction members with
  | nil => exact ⟨fun _ _ hm => absurd hm List.not_mem_nil, fun _ => rfl⟩
  | cons m rest ih =>
    obtain ⟨k, v⟩ := m
    rw [membersFinite, Bool.and_eq_true, ih, List.forall_mem_cons]

/-! ## Texts that name no such number -/

/-- Whether a text names none of the numbers that no document can hold. The names start
with these two letters, or have one of them behind a sign. -/
def NamesFinite (text : List Char) : Prop :=
  ∀ c ∈ unquoted .outside text, c ≠ 'N' ∧ c ≠ 'I'

/-- Whether a character neither opens a string nor starts one of the names. -/
def IsBare (c : Char) : Prop := c ≠ '"' ∧ c ≠ 'N' ∧ c ≠ 'I'

instance (c : Char) : Decidable (IsBare c) := inferInstanceAs (Decidable (_ ∧ _))

theorem isBare_of_all {cs : List Char} (h : cs.all (fun c => decide (IsBare c)) = true) :
    ∀ c ∈ cs, IsBare c :=
  fun c hc => of_decide_eq_true (List.all_eq_true.1 h c hc)

theorem namesFinite_cons {c : Char} {rest : List Char} (hc : IsBare c) (hrest : NamesFinite rest) :
    NamesFinite (c :: rest) := by
  intro x hx
  rw [unquoted, if_neg hc.1, List.mem_cons] at hx
  rcases hx with rfl | hx
  · exact hc.2
  · exact hrest x hx

theorem namesFinite_append {cs rest : List Char} (hcs : ∀ c ∈ cs, IsBare c)
    (hrest : NamesFinite rest) : NamesFinite (cs ++ rest) := by
  induction cs with
  | nil => exact hrest
  | cons c cs ih =>
    rw [List.forall_mem_cons] at hcs
    exact namesFinite_cons hcs.1 (ih hcs.2)

theorem namesFinite_quote (t : String) {rest : List Char} (hrest : NamesFinite rest) :
    NamesFinite (Quoted.quote t ++ rest) := by
  rw [NamesFinite, unquoted_quote]
  exact hrest

theorem isBare_of_isBlank {c : Char} (hc : Reader.isBlank c = true) : IsBare c := by
  have hblank : c ∈ [' ', '\t', '\n', '\r'] := by
    simpa [Reader.isBlank, or_assoc] using hc
  exact isBare_of_all (by decide) c hblank

theorem isBare_of_isDigit {c : Char} (hc : Numeral.isDigit c = true) : IsBare c := by
  refine ⟨?_, ?_, ?_⟩
  all_goals
    rintro rfl
    exact absurd hc (by decide)

theorem isBare_ofInt (n : Int) : ∀ c ∈ Numeral.ofInt n, IsBare c := by
  rw [← Number.text_literalOfInt]
  exact Number.Literal.forall_mem_text (Number.proper_literalOfInt n)
    (fun _ => isBare_of_isDigit) (isBare_of_all (by decide))

theorem isBare_ofBinary64 {x : Binary64} (hx : x.isFinite = true) :
    ∀ c ∈ Number.ofBinary64 x, IsBare c := by
  cases x with
  | finite negative rank =>
    obtain ⟨l, hl, htext, -⟩ := Number.exists_literal negative rank
    rw [← htext]
    exact Number.Literal.forall_mem_text hl (fun _ => isBare_of_isDigit) (isBare_of_all (by decide))
  | infinite negative => cases hx
  | nan => cases hx

variable {s : Spacing}

-- The rest of the text is a variable, as it is for the reader: what is outside the strings
-- of a text is decided from its start, not piece by piece.
mutual
/-- **A written value names no such number**, if it holds none. -/
theorem namesFinite_write (hs : s.IsBlank) : ∀ (v : Json) (depth : Nat) (rest : List Char),
    v.isFinite = true → NamesFinite rest → NamesFinite (write s depth v ++ rest)
  | .null, _, _, _, hrest =>
    namesFinite_append (isBare_of_all (by decide) : ∀ c ∈ "null".toList, IsBare c) hrest
  | .bool true, _, _, _, hrest =>
    namesFinite_append (isBare_of_all (by decide) : ∀ c ∈ "true".toList, IsBare c) hrest
  | .bool false, _, _, _, hrest =>
    namesFinite_append (isBare_of_all (by decide) : ∀ c ∈ "false".toList, IsBare c) hrest
  | .int n, _, _, _, hrest => namesFinite_append (isBare_ofInt n) hrest
  | .float x, _, _, hfinite, hrest => namesFinite_append (isBare_ofBinary64 hfinite) hrest
  | .str t, _, _, _, hrest => namesFinite_quote t hrest
  | .arr [], _, _, _, hrest =>
    namesFinite_append (isBare_of_all (by decide) : ∀ c ∈ ['[', ']'], IsBare c) hrest
  | .arr (v :: items), depth, rest, hfinite, hrest => by
    rw [isFinite, areFinite, Bool.and_eq_true] at hfinite
    have hclose : NamesFinite (s.beforeClose depth ++ ']' :: rest) :=
      namesFinite_append (fun c hc => isBare_of_isBlank (hs.beforeClose _ c hc))
        (namesFinite_cons (by decide) hrest)
    have hitems := namesFinite_writeItems hs items (depth + 1) _ hfinite.2 hclose
    have hvalue := namesFinite_write hs v (depth + 1) _ hfinite.1 hitems
    simp only [write, List.cons_append, List.append_assoc, List.nil_append]
    refine namesFinite_cons (by decide) ?_
    exact namesFinite_append (fun c hc => isBare_of_isBlank (hs.afterOpen _ c hc)) hvalue
  | .obj [], _, _, _, hrest =>
    namesFinite_append (isBare_of_all (by decide) : ∀ c ∈ ['\x7b', '\x7d'], IsBare c) hrest
  | .obj ((k, v) :: members), depth, rest, hfinite, hrest => by
    rw [isFinite, membersFinite, Bool.and_eq_true] at hfinite
    have hclose : NamesFinite (s.beforeClose depth ++ '\x7d' :: rest) :=
      namesFinite_append (fun c hc => isBare_of_isBlank (hs.beforeClose _ c hc))
        (namesFinite_cons (by decide) hrest)
    have hmembers := namesFinite_writeMembers hs members (depth + 1) _ hfinite.2 hclose
    have hvalue := namesFinite_write hs v (depth + 1) _ hfinite.1 hmembers
    have hcolon : NamesFinite (':' :: (s.afterColon ++ _)) := namesFinite_cons (by decide)
      (namesFinite_append (fun c hc => isBare_of_isBlank (hs.afterColon c hc)) hvalue)
    simp only [write, List.cons_append, List.append_assoc, List.nil_append]
    refine namesFinite_cons (by decide) ?_
    exact namesFinite_append (fun c hc => isBare_of_isBlank (hs.afterOpen _ c hc))
      (namesFinite_quote k hcolon)

theorem namesFinite_writeItems (hs : s.IsBlank) :
    ∀ (items : List Json) (depth : Nat) (rest : List Char), areFinite items = true →
      NamesFinite rest → NamesFinite (writeItems s depth items ++ rest)
  | [], _, _, _, hrest => hrest
  | v :: items, depth, rest, hfinite, hrest => by
    rw [areFinite, Bool.and_eq_true] at hfinite
    have hitems := namesFinite_writeItems hs items depth rest hfinite.2 hrest
    have hvalue := namesFinite_write hs v depth _ hfinite.1 hitems
    simp only [writeItems, List.cons_append, List.append_assoc]
    refine namesFinite_cons (by decide) ?_
    exact namesFinite_append (fun c hc => isBare_of_isBlank (hs.afterComma _ c hc)) hvalue

theorem namesFinite_writeMembers (hs : s.IsBlank) :
    ∀ (members : List Member) (depth : Nat) (rest : List Char), membersFinite members = true →
      NamesFinite rest → NamesFinite (writeMembers s depth members ++ rest)
  | [], _, _, _, hrest => hrest
  | (k, v) :: members, depth, rest, hfinite, hrest => by
    rw [membersFinite, Bool.and_eq_true] at hfinite
    have hmembers := namesFinite_writeMembers hs members depth rest hfinite.2 hrest
    have hvalue := namesFinite_write hs v depth _ hfinite.1 hmembers
    have hcolon : NamesFinite (':' :: (s.afterColon ++ _)) := namesFinite_cons (by decide)
      (namesFinite_append (fun c hc => isBare_of_isBlank (hs.afterColon c hc)) hvalue)
    simp only [writeMembers, List.cons_append, List.append_assoc]
    refine namesFinite_cons (by decide) ?_
    exact namesFinite_append (fun c hc => isBare_of_isBlank (hs.afterComma _ c hc))
      (namesFinite_quote k hcolon)
end

end SourceDrift.Json
