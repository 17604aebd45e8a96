/-
Where a finding is shown and where it is opened.

A diagnostic puts a finding into the file of its first mapping that points at one, and opening
the finding leads to the same mapping. Both are there for the same findings, and both start at
the same line and column: shortening a range to its first line leaves its start alone.

The files are told in two ways. A diagnostic sees the mapping's name from the root, whichever
name that is; what is opened, and what the drift check reads, is seen from the root only if it
is a name inside the workspace. That makes no difference to a name from the root of the file
system, which is seen as itself from anywhere. It does to any other: the two files are one
exactly if the name is inside the workspace, is absolute, or the root is the current directory
itself (`path_eq_file_iff`).
-/
import SourceDrift.Store.Basic

set_option autoImplicit false

namespace SourceDrift

variable {root : Path} {f : Finding} {m : SourceMapping} {i : Nat}
  {rest : List (Nat × SourceMapping)}

/-! ## Files -/

/-- A path seen from a root is the path itself exactly if it is absolute or the root is the
directory that relative paths start from. -/
theorem Path.join_eq_self_iff {p : Path} : root.join p = p ↔ p.isAbsolute = true ∨
    root = ⟨"", []⟩ := by
  obtain ⟨anchor, parts⟩ := p
  obtain ⟨rootAnchor, rootParts⟩ := root
  unfold join
  by_cases habsolute : isAbsolute ⟨anchor, parts⟩ = true
  · simp [habsolute]
  · have hanchor : anchor = "" := by simpa [isAbsolute] using habsolute
    simp [isAbsolute, hanchor]

/-- The file in which a mapping is shown is the one that it points at exactly if its name is one
inside the workspace or leads to the same file from everywhere. -/
theorem path_eq_file_iff : root.join (Path.ofString m.name) = m.file root ↔
    m.relative ≠ "" ∨ (Path.ofString m.absolute).isAbsolute = true ∨ root = ⟨"", []⟩ := by
  unfold SourceMapping.name SourceMapping.file
  by_cases hrelative : m.relative = ""
  · simp [hrelative, Path.join_eq_self_iff]
  · simp [hrelative]

/-! ## Elements -/

/-- A mapping that is listed as pointing at a file is that of the element at its index. -/
theorem Finding.element?_of_mem_mapped (h : (i, m) ∈ f.mapped) :
    (f.element? (i : Int)).bind Element.mapping = some m := by
  -- The listing counts from somewhere; the elements before that are the ones it has passed.
  have hfrom : ∀ (es : List Element) (k : Nat), (i, m) ∈ mappedFrom k es →
      k ≤ i ∧ (es[i - k]?).bind Element.mapping = some m := by
    intro es
    induction es with
    | nil => exact fun _ hmem => absurd hmem List.not_mem_nil
    | cons e es ih =>
      intro k hmem
      have hlater : (i, m) ∈ mappedFrom (k + 1) es →
          k ≤ i ∧ ((e :: es)[i - k]?).bind Element.mapping = some m := by
        intro hmem
        obtain ⟨hle, hthere⟩ := ih (k + 1) hmem
        have hindex : i - k = (i - (k + 1)) + 1 := by omega
        rw [hindex, List.getElem?_cons_succ]
        exact ⟨by omega, hthere⟩
      rw [mappedFrom] at hmem
      cases he : e.mapping with
      | none =>
        rw [he] at hmem
        exact hlater hmem
      | some own =>
        rw [he] at hmem
        rcases List.mem_cons.1 hmem with heq | hmem
        · cases heq
          simp [he]
        · exact hlater hmem
  exact (hfrom f.elements 0 h).2

/-- An element that points at a file can be opened exactly if the sources are not known to have
changed. -/
theorem Finding.target?_of_mem_mapped (collapse : CollapsePolicy) (h : (i, m) ∈ f.mapped) :
    f.target? collapse root i =
      if f.sync = .outOfSync then none else some ⟨m.file root, f.displayRange collapse i, i⟩ := by
  rw [target?, element?_of_mem_mapped h]

/-! ## Ranges -/

theorem TextRange.startLine_firstLine (r : TextRange) : r.firstLine.startLine = r.startLine := by
  unfold firstLine
  split <;> rfl

theorem TextRange.startColumn_firstLine (r : TextRange) :
    r.firstLine.startColumn = r.startColumn := by
  unfold firstLine
  split <;> rfl

/-- **A range starts where it starts**, however much of it is shown. -/
theorem Finding.displayRange_start (collapse : CollapsePolicy) (f : Finding) (index : Int) :
    (f.displayRange collapse index).startLine = (f.fullRange index).startLine ∧
      (f.displayRange collapse index).startColumn = (f.fullRange index).startColumn := by
  unfold displayRange
  cases helement : f.element? index with
  | none =>
    have hempty : f.fullRange index = .empty := by rw [fullRange, helement]; rfl
    rw [hempty]
    exact ⟨rfl, rfl⟩
  | some e =>
    dsimp only
    split
    · exact ⟨TextRange.startLine_firstLine _, TextRange.startColumn_firstLine _⟩
    · exact ⟨rfl, rfl⟩

/-! ## Diagnostics -/

namespace Diagnostic

/-- The diagnostics of one finding are the one that it has, in its file. -/
theorem byFile_singleton (root : Path) (hidden : List String) (f : Finding) :
    byFile root hidden [f] = (ofFinding? root hidden f).toList.map fun d => (d.path, [d]) := by
  rw [byFile, List.filterMap_cons, List.filterMap_nil]
  cases ofFinding? root hidden f <;> rfl

theorem ofFinding?_of_mapped {hidden : List String} (hcheck : f.check ∉ hidden)
    (hmapped : f.mapped = (i, m) :: rest) :
    ofFinding? root hidden f =
      if f.sync = .outOfSync then none
      else some ⟨root.join (Path.ofString m.name), f.fullRange i, Text.strip f.description,
        .ofImpact f.impact, f.check⟩ := by
  have hshown : hidden.contains f.check = false := by simpa using hcheck
  rw [ofFinding?, hmapped, hshown]
  simp

theorem ofFinding?_of_unmapped {hidden : List String} (hmapped : f.mapped = []) :
    ofFinding? root hidden f = none := by
  rw [ofFinding?, hmapped]
  split <;> rfl

/-- What a diagnostic of a finding and the target of its first mapping have in common. -/
structure Meets (root : Path) (f : Finding) (i : Nat) (m : SourceMapping) (d : Diagnostic)
    (target : Target) : Prop where
  shownIn : d.path = root.join (Path.ofString m.name)
  opened : target.path = m.file root
  read : (m, target.path) ∈ Sync.targets root f
  path : d.path = target.path ↔
    m.relative ≠ "" ∨ (Path.ofString m.absolute).isAbsolute = true ∨ root = ⟨"", []⟩
  startLine : d.range.startLine = target.range.startLine
  startColumn : d.range.startColumn = target.range.startColumn
  element : target.element = i

/-- **A finding is shown exactly if its first mapping can be opened**, and then in the same place:
from one line and column on, and in the file that is opened and checked for drift exactly if the
file's name is one inside the workspace, or leads to one file from everywhere. -/
theorem shown_iff_opened (collapse : CollapsePolicy) {root : Path} {hidden : List String}
    {f : Finding}
    (hcheck : f.check ∉ hidden) :
    (byFile root hidden [f] ≠ [] ↔
        ∃ i m rest, f.mapped = (i, m) :: rest ∧ (f.target? collapse root i).isSome) ∧
      ∀ (i : Nat) m rest target, f.mapped = (i, m) :: rest →
        f.target? collapse root i = some target →
        ∃ d, byFile root hidden [f] = [(d.path, [d])] ∧ Meets root f i m d target := by
  -- Both go by the first mapping, and both leave out a finding that has drifted.
  rw [byFile_singleton]
  constructor
  · cases hmapped : f.mapped with
    | nil =>
      rw [ofFinding?_of_unmapped hmapped]
      simp
    | cons first rest =>
      obtain ⟨i, m⟩ := first
      have hmem : (i, m) ∈ f.mapped := by simp [hmapped]
      have htarget : f.target? collapse root i =
          if f.sync = .outOfSync then none else some ⟨m.file root, f.displayRange collapse i, i⟩ :=
        Finding.target?_of_mem_mapped collapse hmem
      rw [ofFinding?_of_mapped hcheck hmapped]
      by_cases hsync : f.sync = .outOfSync
      · simp [hsync, htarget]
      · simp [hsync, htarget]
  · intro i m rest target hmapped htarget
    have hmem : (i, m) ∈ f.mapped := by simp [hmapped]
    rw [Finding.target?_of_mem_mapped collapse hmem] at htarget
    rw [ofFinding?_of_mapped hcheck hmapped]
    by_cases hsync : f.sync = .outOfSync
    · simp [hsync] at htarget
    · rw [if_neg hsync] at htarget ⊢
      cases htarget
      obtain ⟨hline, hcolumn⟩ := f.displayRange_start collapse i
      refine ⟨_, rfl, rfl, rfl, ?_, path_eq_file_iff, hline.symm, hcolumn.symm, rfl⟩
      exact List.mem_map.2 ⟨(i, m), hmem, rfl⟩

/-- A mapping of three lines whose only name is a relative one, given as the place in the file
system. -/
def unanchoredMapping : SourceMapping :=
  ⟨none, none, some "a.sol", none, some [3, 4, 5], some 2, some 9, none, []⟩

/-- A finding with an element that points nowhere before the one with that mapping. -/
def unanchoredFinding : Finding :=
  ⟨some "x", none, none, none, some [⟨none, none, none, none, []⟩,
    ⟨none, none, some (some unanchoredMapping), none, []⟩], none, []⟩

/-- Such a finding is shown in a file of the workspace, while a file of the current directory is
opened and checked for drift. -/
theorem shown_iff_opened_unanchored :
    unanchoredFinding.check ∉ ["y"] ∧
      ∃ d target, byFile ⟨"", ["w"]⟩ ["y"] [unanchoredFinding] = [(d.path, [d])] ∧
        unanchoredFinding.target? .always ⟨"", ["w"]⟩ 1 = some target ∧
        Meets ⟨"", ["w"]⟩ unanchoredFinding 1 unanchoredMapping d target ∧
        d.path = ⟨"", ["w", "a.sol"]⟩ ∧ target.path = ⟨"", ["a.sol"]⟩ := by
  have hcheck : unanchoredFinding.check ∉ ["y"] := by decide
  have htarget : unanchoredFinding.target? .always ⟨"", ["w"]⟩ 1 =
      some ⟨⟨"", ["a.sol"]⟩, ⟨2, 1, 3, 0⟩, 1⟩ := by decide +kernel
  obtain ⟨d, hshown, hmeets⟩ :=
    (shown_iff_opened .always hcheck).2 1 unanchoredMapping [] _ rfl htarget
  refine ⟨hcheck, d, _, hshown, htarget, hmeets, ?_, rfl⟩
  rw [hmeets.shownIn]
  decide +kernel

end Diagnostic
end SourceDrift
