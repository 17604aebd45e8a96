/-
Ranges in the order of the text.

A place of a text is a line and a column, and one place comes before another by its line and then
by its column. A mapping gives its two places counted from 1, and both are counted from 0 in a
range, where whatever lies before the first line or column counts as the first. That keeps the
order of the places as long as the mapping starts on a line: two lines that are different stay so,
and columns of one line are only moved together.

Shortening a range to its first line moves its end to the start of the next line. A range that ends
on another line than it starts on ends no earlier than that, so a shortened range is part of the
whole one.
-/
import Mathlib.Data.Prod.Lex
import SourceDrift.Proofs.Finding.Navigation

set_option autoImplicit false

namespace SourceDrift

namespace TextRange

/-- Where a range begins: a line, and a column in it. -/
def first (r : TextRange) : Int ×ₗ Int := toLex (r.startLine, r.startColumn)

/-- Where a range ends. -/
def last (r : TextRange) : Int ×ₗ Int := toLex (r.endLine, r.endColumn)

/-- Whether a range is one of a text: it begins no later than it ends, and nothing of it lies before
the first line or the first column. -/
structure Proper (r : TextRange) : Prop where
  ordered : r.first ≤ r.last
  startLine : 0 ≤ r.startLine
  startColumn : 0 ≤ r.startColumn
  endLine : 0 ≤ r.endLine
  endColumn : 0 ≤ r.endColumn

/-! ## Counting from 0 -/

theorem zeroBased_nonneg (n : Int) : 0 ≤ zeroBased n := le_max_right _ _

/-- Counting from 0 keeps the order of two places, the first of which is on a line. -/
theorem zeroBased_lex {line column line' column' : Int} (hline : 1 ≤ line)
    (hle : toLex (line, column) ≤ toLex (line', column')) :
    toLex (zeroBased line, zeroBased column) ≤ toLex (zeroBased line', zeroBased column') := by
  unfold zeroBased
  rw [Prod.Lex.toLex_le_toLex] at hle ⊢
  rcases hle with hlt | ⟨rfl, hcolumn⟩
  · left
    dsimp only at hlt ⊢
    omega
  · right
    dsimp only at hcolumn ⊢
    omega

/-! ## Shortening -/

theorem first_firstLine (r : TextRange) : r.firstLine.first = r.first := by
  rw [first, first, startLine_firstLine, startColumn_firstLine]

/-- **A range shortened to its first line is one of the text, and part of the whole.** -/
theorem Proper.firstLine {r : TextRange} (hr : r.Proper) :
    r.firstLine.Proper ∧ r.firstLine.last ≤ r.last := by
  unfold TextRange.firstLine
  by_cases hline : r.endLine = r.startLine
  · rw [if_pos hline]
    exact ⟨hr, le_refl _⟩
  · rw [if_neg hline]
    have hlater : r.startLine < r.endLine := by
      rcases Prod.Lex.toLex_le_toLex.1 hr.ordered with hlt | ⟨heq, -⟩
      · exact hlt
      · exact absurd heq.symm hline
    have hstart := hr.startLine
    refine ⟨⟨?_, hr.startLine, hr.startColumn, ?_, le_refl 0⟩, ?_⟩
    · exact Prod.Lex.toLex_le_toLex.2 (.inl (by dsimp only; omega))
    · dsimp only
      omega
    · rw [last, last, Prod.Lex.toLex_le_toLex]
      dsimp only
      -- The next line is the last one or comes before it, and no column comes before its start.
      rcases lt_or_eq_of_le (show r.startLine + 1 ≤ r.endLine by omega) with hlt | heq
      · exact .inl hlt
      · exact .inr ⟨heq, hr.endColumn⟩

/-- The range of a mapping whose places are in order is one of the text. -/
theorem proper_ofMapping {m : SourceMapping} (hlines : m.lines ≠ [])
    (hfirst : 1 ≤ m.lines.head hlines)
    (hordered : toLex (m.lines.head hlines, m.startColumn) ≤
      toLex (m.lines.getLast hlines, m.endColumn)) :
    ∃ r, ofMapping? m = some r ∧ r.Proper := by
  unfold ofMapping?
  generalize m.lines = lines at hlines hfirst hordered
  cases lines with
  | nil => exact absurd rfl hlines
  | cons line rest =>
    rw [List.head_cons] at hfirst hordered
    have hlast : (line :: rest).getLast hlines = rest.getLastD line := List.getLast_eq_getLastD ..
    rw [hlast] at hordered
    exact ⟨_, rfl, zeroBased_lex hfirst hordered, zeroBased_nonneg _, zeroBased_nonneg _,
      zeroBased_nonneg _, zeroBased_nonneg _⟩

end TextRange

namespace Finding

variable {f : Finding} {index : Int} {e : Element} {m : SourceMapping}

theorem displayRange_of_element (policy : CollapsePolicy) (helement : f.element? index = some e) :
    f.displayRange policy index =
      if policy.collapses e then (f.fullRange index).firstLine else f.fullRange index := by
  rw [displayRange, helement]

/-- **Ranges keep the order of the text, and shortening leads to a part of the whole range.** For
an element with a mapping whose places are in order the whole range is one of the text; under
either policy the shown one begins with it and ends in it; and the policy that shortens some ranges
only shows the whole range, or what the other policy shows. -/
theorem shown_within_full (helement : f.element? index = some e)
    (hmapping : e.sourceMapping = some m)
    (hlines : m.lines ≠ []) (hfirst : 1 ≤ m.lines.head hlines)
    (hordered : toLex (m.lines.head hlines, m.startColumn) ≤
      toLex (m.lines.getLast hlines, m.endColumn)) :
    (f.fullRange index).Proper ∧
      (∀ policy, (f.displayRange policy index).Proper ∧
        (f.displayRange policy index).first = (f.fullRange index).first ∧
        (f.displayRange policy index).last ≤ (f.fullRange index).last) ∧
      (f.displayRange .declarations index = f.fullRange index ∨
        f.displayRange .declarations index = f.displayRange .always index) := by
  obtain ⟨r, hr, hproper⟩ := TextRange.proper_ofMapping hlines hfirst hordered
  have hfull : f.fullRange index = r := by
    rw [fullRange, helement, Option.bind_some, hmapping]
    dsimp only
    rw [hr, Option.getD_some]
  -- A shortened range is the first line of the whole one.
  obtain ⟨hshort, hend⟩ := hproper.firstLine
  rw [hfull]
  refine ⟨hproper, fun policy => ?_, ?_⟩
  · rw [displayRange_of_element policy helement, hfull]
    split
    · exact ⟨hshort, r.first_firstLine, hend⟩
    · exact ⟨hproper, rfl, le_refl _⟩
  · rw [displayRange_of_element .declarations helement,
      displayRange_of_element .always helement, hfull]
    by_cases hcollapses : CollapsePolicy.declarations.collapses e = true
    · rw [if_pos hcollapses]
      exact .inr rfl
    · rw [if_neg hcollapses]
      exact .inl rfl

/-- A mapping that starts before the first column of its first line, and ends before the first
column of the next. -/
def edgeMapping : SourceMapping :=
  ⟨none, none, none, some "a.sol", some [1, 9, 2], some (-3), some (-7), none, []⟩

/-- A finding with a function of that mapping. -/
def edgeFinding : Finding :=
  ⟨some "x", none, none, none, some [⟨none, some "function", some (some edgeMapping), none, []⟩],
    none, []⟩

/-- Both columns count as the first one, and the next line is where the shortened range ends too. -/
theorem shown_within_full_edge :
    (edgeFinding.fullRange 0).Proper ∧ edgeFinding.fullRange 0 = ⟨0, 0, 1, 0⟩ ∧
      (edgeFinding.displayRange .declarations 0).last ≤ (edgeFinding.fullRange 0).last := by
  have hordered : toLex (edgeMapping.lines.head (by decide), edgeMapping.startColumn) ≤
      toLex (edgeMapping.lines.getLast (by decide), edgeMapping.endColumn) := by decide
  have helement : edgeFinding.element? 0 =
      some ⟨none, some "function", some (some edgeMapping), none, []⟩ := rfl
  obtain ⟨hfull, hshown, -⟩ := shown_within_full helement rfl (by decide) (by decide) hordered
  exact ⟨hfull, by decide, (hshown .declarations).2.2⟩

end Finding
end SourceDrift
