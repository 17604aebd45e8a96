/-
References to source locations inside a description, such as
`(contracts/Token.sol#12-15)`.

A reference is a parenthesis that encloses a file name without blanks, ending in
`.sol` in any case, and after it a line or a range of lines. `afterReference?`
reads the longest one behind an opening parenthesis: it goes on looking further
right for as long as no blank stands in the way and takes the last place where a
name can end. `removeReferences` cuts every reference out, together with the one
blank that may stand before it.

The cut goes on behind what it has removed, so the recursion is on the length of
what is left; `length_afterReference?_lt` is the fact it rests on.
-/
import SourceDrift.Text.Blank
import SourceDrift.Text.DecimalDigit

set_option autoImplicit false

namespace SourceDrift.Reference

/-! ## The end of a reference -/

/-- Whether a character is this lower-case letter in any case. The long s counts
as an s. -/
def isLetter (letter c : Char) : Bool :=
  c == letter || c.toLower == letter || (letter == 's' && c == '\u017F')

/-- What is left behind a run of at least one digit. -/
def afterDigits? (cs : List Char) : Option (List Char) :=
  match cs with
  | [] => none
  | c :: rest => if Text.isDecimalDigit c then some (rest.dropWhile Text.isDecimalDigit) else none

/-- What is left behind the lines of a reference: nothing to read, `#` with a
line, or `#` with two lines and a dash between them. -/
def afterLines? (cs : List Char) : Option (List Char) :=
  match cs with
  | '#' :: rest =>
    match afterDigits? rest with
    | some ('-' :: more) => afterDigits? more
    | found => found
  | _ => some cs

/-- What is left behind the end of a reference: the suffix of a file name, lines,
and the closing parenthesis. -/
def afterSuffix? (cs : List Char) : Option (List Char) :=
  match cs with
  | p :: s :: o :: l :: rest =>
    if p = '.' ∧ isLetter 's' s ∧ isLetter 'o' o ∧ isLetter 'l' l then
      match afterLines? rest with
      | some (')' :: more) => some more
      | _ => none
    else none
  | _ => none

/-- **What is left behind the longest reference** whose opening parenthesis has
been read: the last place before the next blank where a reference can end. -/
def afterReference? : List Char → Option (List Char)
  | [] => none
  | c :: rest =>
    if Text.isBlank c then none
    else
      match afterReference? rest with
      | some found => some found
      | none => afterSuffix? (c :: rest)

/-! ## What is left is shorter -/

theorem length_dropWhile_le (p : Char → Bool) (cs : List Char) :
    (cs.dropWhile p).length ≤ cs.length :=
  (List.dropWhile_suffix p).length_le

theorem length_afterDigits?_lt {cs rest : List Char} (h : afterDigits? cs = some rest) :
    rest.length < cs.length := by
  cases cs with
  | nil => simp [afterDigits?] at h
  | cons c more =>
    simp only [afterDigits?] at h
    split at h
    · cases h
      have := length_dropWhile_le Text.isDecimalDigit more
      simp only [List.length_cons]
      omega
    · simp at h

theorem length_afterLines?_le {cs rest : List Char} (h : afterLines? cs = some rest) :
    rest.length ≤ cs.length := by
  unfold afterLines? at h
  split at h
  · next more =>
    split at h
    · next tail found =>
      have := length_afterDigits?_lt found
      have := length_afterDigits?_lt h
      simp only [List.length_cons] at *
      omega
    · have := length_afterDigits?_lt h
      simp only [List.length_cons]
      omega
  · cases h
    exact Nat.le_refl _

theorem length_afterSuffix?_lt {cs rest : List Char} (h : afterSuffix? cs = some rest) :
    rest.length < cs.length := by
  unfold afterSuffix? at h
  split at h
  · split at h
    · split at h
      · next found =>
        cases h
        have := length_afterLines?_le found
        simp only [List.length_cons] at *
        omega
      · simp at h
    · simp at h
  · simp at h

/-- A reference has characters of its own. -/
theorem length_afterReference?_lt {cs rest : List Char} (h : afterReference? cs = some rest) :
    rest.length < cs.length := by
  induction cs generalizing rest with
  | nil => simp [afterReference?] at h
  | cons c more ih =>
    simp only [afterReference?] at h
    split at h
    · simp at h
    · split at h
      · next found hf =>
        cases h
        exact Nat.lt_succ_of_lt (ih hf)
      · exact length_afterSuffix?_lt h

/-! ## Cutting references out -/

/-- What is left behind the reference at the start of the text, with the blank
before its parenthesis if there is one. -/
def afterMatch? (cs : List Char) : Option (List Char) :=
  match cs with
  | [] => none
  | c :: rest =>
    if c = '(' then afterReference? rest
    else if Text.isBlank c then
      match rest with
      | '(' :: more => afterReference? more
      | _ => none
    else none

theorem length_afterMatch?_lt {cs rest : List Char} (h : afterMatch? cs = some rest) :
    rest.length < cs.length := by
  unfold afterMatch? at h
  split at h
  · simp at h
  · split at h
    · exact Nat.lt_succ_of_lt (length_afterReference?_lt h)
    · split at h
      · split at h
        · have := length_afterReference?_lt h
          simp only [List.length_cons]
          omega
        · simp at h
      · simp at h

/-- **The text without its references.** -/
def removeReferences (cs : List Char) : List Char :=
  match cs with
  | [] => []
  | c :: rest =>
    match h : afterMatch? (c :: rest) with
    | some more =>
      have : more.length < rest.length + 1 := length_afterMatch?_lt h
      removeReferences more
    | none => c :: removeReferences rest
termination_by cs.length

end SourceDrift.Reference
