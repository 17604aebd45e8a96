/-
Log files are named as their templates spell it.

A template is read from the front, one piece at a time, and the pieces behind do not depend on
those before. So what a template names is put together from the front as well: a character that
is no brace names itself, a brace written twice names one brace, and a field names what its value
is written as. `Names` holds what is put together so. The check that comes first and the filling in
both get to its end by an induction on it, whatever number of pieces they are allowed, as long as
it is not below the length of the template.
-/
import SourceDrift.LogName

set_option autoImplicit false

namespace SourceDrift.Template

/-! ## Pieces -/

/-- A text with each of its braces written twice. -/
def escaped (text : List Char) : List Char :=
  text.flatMap fun c => if isBrace c then [c, c] else [c]

theorem escaped_eq_self {text : List Char} (h : ∀ c ∈ text, isBrace c = false) :
    escaped text = text := by
  induction text with
  | nil => rfl
  | cons c cs ih =>
    have hc : isBrace c = false := h c List.mem_cons_self
    have hcs := ih fun d hd => h d (List.mem_cons_of_mem _ hd)
    rw [escaped] at hcs
    rw [escaped, List.flatMap_cons, hcs, hc]
    rfl

/-- A character that is no brace belongs to the text of the first piece. -/
theorem readPiece_cons {c : Char} (hc : isBrace c = false) (cs : List Char) :
    readPiece (c :: cs) = (readPiece cs).map fun p => { p with text := c :: p.text } := by
  simp only [readPiece, List.takeWhile_cons, List.dropWhile_cons, hc, Bool.not_false, if_true]
  split
  · rfl
  · rfl
  · rename_i brace d rest _
    by_cases hd : d = brace
    · simp only [if_pos hd]
      rfl
    · simp only [if_neg hd]
      split
      · rfl
      · cases readField (d :: rest) <;> rfl

/-- A brace that is written twice is a piece by itself. -/
theorem readPiece_doubled {c : Char} (hc : isBrace c = true) (cs : List Char) :
    readPiece (c :: c :: cs) = .ok ⟨[c], none, cs⟩ := by
  simp only [readPiece, List.takeWhile_cons, List.dropWhile_cons, hc, Bool.not_true,
    Bool.false_eq_true, if_false, if_true, List.nil_append]

/-- The characters that may stand in the name of a field and mean nothing there. -/
def isPlain (c : Char) : Bool :=
  !(isBrace c || c == ':' || c == '!' || c == '[')

theorem readName_plain {name : List Char} (hname : ∀ c ∈ name, isPlain c) (cs : List Char) :
    readName false (name ++ '\x7d' :: cs) = .ok (name, '\x7d', cs) := by
  induction name with
  | nil => rfl
  | cons c name ih =>
    have hc := hname c List.mem_cons_self
    simp only [isPlain, isBrace, Bool.not_eq_true', Bool.or_eq_false_iff] at hc
    obtain ⟨⟨⟨⟨hopen, hclose⟩, hcolon⟩, hmark⟩, hbracket⟩ := hc
    have hrest := ih fun d hd => hname d (List.mem_cons_of_mem _ hd)
    simp only [List.cons_append, readName, hopen, hclose, hcolon, hmark, hbracket,
      Bool.or_self, Bool.and_false, Bool.false_eq_true, if_false, hrest]
    rfl

theorem readField_plain {name : List Char} (hname : ∀ c ∈ name, isPlain c) (cs : List Char) :
    readField (name ++ '\x7d' :: cs) = .ok (⟨name, none, []⟩, cs) := by
  rw [readField, readName_plain hname]
  rfl

/-- A field with nothing but a name is a piece by itself. -/
theorem readPiece_field {name : List Char} (hname : ∀ c ∈ name, isPlain c) (cs : List Char) :
    readPiece ('\x7b' :: (name ++ '\x7d' :: cs)) = .ok ⟨[], some ⟨name, none, []⟩, cs⟩ := by
  have hfield := readField_plain hname cs
  have hbrace : isBrace '\x7b' = true := by decide
  -- What follows the brace is not a second one.
  have hhead : ∃ c rest, name ++ '\x7d' :: cs = c :: rest ∧ c ≠ '\x7b' := by
    cases name with
    | nil => exact ⟨_, _, rfl, by decide⟩
    | cons c name =>
      refine ⟨_, _, rfl, ?_⟩
      rintro rfl
      exact absurd (hname _ List.mem_cons_self) (by decide)
  obtain ⟨c, rest, htext, hc⟩ := hhead
  rw [htext] at hfield
  simp only [htext, readPiece, List.takeWhile_cons, List.dropWhile_cons, hbrace, Bool.not_true,
    Bool.false_eq_true, if_false, hc, hfield]
  rfl

end SourceDrift.Template

namespace SourceDrift.LogName

open Template

variable {now : Moment} {cs out text name : List Char} {c : Char}

/-! ## What a template names -/

/-- What stands for the field of a piece: nothing if there is none, and what its value is
written as for a field with nothing but a name. -/
inductive Written (now : Moment) : Option Field → List Char → Prop
  | nothing : Written now none []
  | field {name text : List Char} {v : Value} (hvalue : valueOf now name = .ok v)
      (hwrite : v.write now [] = .ok text) : Written now (some ⟨name, none, []⟩) text

/-- A template names a text at a moment, piece by piece. -/
inductive Names (now : Moment) : List Char → List Char → Prop
  | nil : Names now [] []
  | piece {cs text out : List Char} {p : Piece} (hpiece : readPiece cs = .ok p)
      (hlength : p.rest.length < cs.length) (hfield : Written now p.field text)
      (hrest : Names now p.rest out) : Names now cs (p.text ++ text ++ out)

namespace Names

/-- A character that is no brace names itself. -/
theorem cons (h : Names now cs out) (hc : isBrace c = false) : Names now (c :: cs) (c :: out) := by
  cases h with
  | nil =>
    have hpiece : readPiece [c] = .ok ⟨[c], none, []⟩ := readPiece_cons hc []
    exact .piece hpiece Nat.zero_lt_one .nothing .nil
  | piece hpiece hlength hfield hrest =>
    have hpiece' := readPiece_cons hc cs
    rw [hpiece] at hpiece'
    exact .piece hpiece' (Nat.lt_succ_of_lt hlength) hfield hrest

/-- A brace that is written twice names one. -/
theorem doubled (h : Names now cs out) (hc : isBrace c = true) :
    Names now (c :: c :: cs) (c :: out) :=
  .piece (readPiece_doubled hc cs) (Nat.lt_succ_of_lt (Nat.lt_succ_self _)) .nothing h

/-- A field with nothing but a name names what its value is written as. -/
theorem field {v : Value} (h : Names now cs out) (hname : ∀ c ∈ name, isPlain c)
    (hvalue : valueOf now name = .ok v) (hwrite : v.write now [] = .ok text) :
    Names now ('\x7b' :: (name ++ '\x7d' :: cs)) (text ++ out) := by
  refine .piece (readPiece_field hname cs) ?_ (.field hvalue hwrite) h
  simp only [List.length_cons, List.length_append]
  omega

/-- Text with its braces written twice names itself. -/
theorem escaped_append (h : Names now cs out) (text : List Char) :
    Names now (escaped text ++ cs) (text ++ out) := by
  induction text with
  | nil => exact h
  | cons c text ih =>
    rw [escaped, List.flatMap_cons, ← escaped, List.append_assoc]
    cases hc : isBrace c with
    | false => exact ih.cons hc
    | true => exact ih.doubled hc

/-! ## Naming -/

/-- A piece takes one of the pieces that are allowed and leaves enough for the rest. -/
theorem exists_left {rest : List Char} {fuel : Nat} (hlength : rest.length < cs.length)
    (hfuel : cs.length ≤ fuel) :
    ∃ left, fuel = left + 1 ∧ rest.length ≤ left ∧ cs.isEmpty = false := by
  refine ⟨fuel - 1, by omega, by omega, ?_⟩
  cases cs with
  | nil => exact absurd hlength (Nat.not_lt_zero _)
  | cons _ _ => rfl

/-- Such a template can be taken apart. -/
theorem check_eq (h : Names now cs out) :
    ∀ fuel, cs.length ≤ fuel → check fuel cs = .ok () := by
  induction h with
  | nil =>
    intro fuel _
    cases fuel <;> rfl
  | piece hpiece hlength _ _ ih =>
    intro fuel hfuel
    obtain ⟨left, rfl, hleft, hempty⟩ := exists_left hlength hfuel
    simp only [check, hempty, hpiece]
    exact ih left hleft

/-- A first piece is filled in before the rest. -/
theorem fillWith_piece {p : Piece} {left : Nat} (hpiece : readPiece cs = .ok p)
    (hempty : cs.isEmpty = false) (hfield : Written now p.field text)
    {fillLayout : List Char → Except Problem (List Char)}
    (hrest : fillWith fillLayout now left p.rest = .ok out) :
    fillWith fillLayout now (left + 1) cs = .ok (p.text ++ text ++ out) := by
  have hread : (readPiece cs).mapError Problem.malformed = .ok p := by
    rw [hpiece]
    rfl
  obtain ⟨front, field, rest⟩ := p
  rw [fillWith, hempty, hread]
  dsimp only at hrest hfield
  cases hfield with
  | nothing =>
    simp only [bind, Except.bind, hrest]
    rfl
  | field hvalue hwrite =>
    simp only [bind, Except.bind, hrest, hvalue, hwrite]
    rfl

/-- And it is filled in as the text. -/
theorem fillWith_eq (h : Names now cs out) (fillLayout : List Char → Except Problem (List Char)) :
    ∀ fuel, cs.length ≤ fuel → fillWith fillLayout now fuel cs = .ok out := by
  induction h with
  | nil =>
    intro fuel _
    cases fuel <;> rfl
  | piece hpiece hlength hfield _ ih =>
    intro fuel hfuel
    obtain ⟨left, rfl, hleft, hempty⟩ := exists_left hlength hfuel
    exact fillWith_piece hpiece hempty hfield (ih left hleft)

end Names

/-- **A template is the name that it spells.** -/
theorem ofTemplate_of_names (h : Names now cs out) :
    ofTemplate now (String.ofList cs) = .ok (String.ofList out) := by
  rw [ofTemplate, String.toList_ofList, h.check_eq _ (Nat.le_refl _)]
  have hfill : fill now 2 cs = .ok out := h.fillWith_eq _ _ (Nat.le_refl _)
  simp only [hfill]
  rfl

/-- **The time stands where a template asks for it, and all else stands for itself** once its
braces are written twice. -/
theorem ofTemplate_time (now : Moment) (before after : List Char) :
    ofTemplate now (String.ofList
        (escaped before ++ '\x7b' :: ("time".toList ++ '\x7d' :: escaped after))) =
      .ok (String.ofList (before ++ (now.writePercents true stampNotation ++ after))) := by
  have hafter : Names now (escaped after ++ []) (after ++ []) := Names.nil.escaped_append after
  rw [List.append_nil, List.append_nil] at hafter
  have hname : ∀ c ∈ "time".toList, isPlain c := List.all_eq_true.1 (by decide)
  have htime : valueOf now "time".toList = .ok .stamp := rfl
  have hwrite : Value.stamp.write now [] = .ok (now.writePercents true stampNotation) := rfl
  exact ofTemplate_of_names ((hafter.field hname htime hwrite).escaped_append before)

/-- A template without a brace is the name itself, whatever the time. -/
theorem ofTemplate_eq_self (now : Moment) {template : String}
    (h : ∀ c ∈ template.toList, isBrace c = false) : ofTemplate now template = .ok template := by
  have hnames : Names now (escaped template.toList ++ []) (template.toList ++ []) :=
    Names.nil.escaped_append _
  rw [List.append_nil, List.append_nil, escaped_eq_self h] at hnames
  simpa only [String.ofList_toList] using ofTemplate_of_names hnames

end SourceDrift.LogName
