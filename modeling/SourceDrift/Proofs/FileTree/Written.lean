/-
What has been written is read again.

A file is written where its path leads, links followed, whether or not it is there. A walk in
search of a place to write never ends at a link, because it would follow it. So what is written
takes the place of a file or of nothing, and nothing that lies on the way: every later walk by the
same path ends in the same place, and there the file is read, or written anew.
-/
import SourceDrift.Proofs.FileTree.Contents

set_option autoImplicit false

namespace SourceDrift.FileTree

variable {t t' : FileTree} {links : Nat} {here q cwd : Place} {parts : List String} {aim : Aim}
  {bytes : List UInt8} {p : Path}

/-! ## Where a walk ends -/

/-- **A walk does not end at a link**, unless links are asked for. -/
theorem walk_ne_link (haim : aim ≠ .entry) (hhere : Grounded t here)
    (h : t.walk aim links here parts = .ok q) : ∀ target, t.node? q ≠ some (.link target) := by
  rw [walk_eq_ok] at h
  induction h with
  | nil =>
    rw [hhere.node]
    rintro target ⟨⟩
  | idle _ _ ih => exact ih hhere
  | up _ ih => exact ih hhere.dropLast
  | last _ hend => exact hend.notFollowed.resolve_left haim
  | down hname _ hnode _ ih => exact ih (hhere.down hname hnode)
  | link _ _ _ _ _ ih =>
    refine ih ?_
    split
    · exact .root
    · exact hhere

/-! ## Walks to a file that has been written -/

/-- A walk in search of a place to write ends there again, with a file put down where it ended. -/
theorem walk_written (haim : aim ≠ .entry) (hroot : q ≠ []) (hother : t.node? q ≠ some .directory)
    (hunlinked : ∀ target, t.node? q ≠ some (.link target))
    (h : t.walk .writing links here parts = .ok q) :
    (t.insert q (.file bytes)).walk aim links here parts = .ok q := by
  rw [walk_eq_ok] at h ⊢
  -- Where the walk ended there is the file now; everything on the way is as it was.
  induction h with
  | nil => exact .nil
  | idle hidle _ ih => exact .idle hidle (ih hroot hother hunlinked)
  | up _ ih => exact .up (ih hroot hother hunlinked)
  | last hname _ => exact .last hname ⟨by simp [node?_insert_self hroot],
      by simp [node?_insert_self hroot]⟩
  | down hname hwriting hnode _ ih =>
    refine .down hname (fun hslash => hwriting ⟨rfl, hslash.2⟩) ?_ (ih hroot hother hunlinked)
    rw [node?_insert_of_ne, hnode]
    rintro rfl
    exact hother hnode
  | link hname hwriting hnode _ _ ih =>
    refine .link hname (fun hslash => hwriting ⟨rfl, hslash.2⟩) ?_ (fun hends => haim hends.2)
      (ih hroot hother hunlinked)
    rw [node?_insert_of_ne, hnode]
    rintro rfl
    exact hunlinked _ hnode

/-! ## Files that have been written -/

/-- **A file is written in the place of a file or of nothing**, and the path leads there ever
after. -/
theorem writeFile_spec (hcwd : Grounded t cwd) (h : t.writeFile cwd p bytes = .ok t') :
    ∃ q, q ≠ [] ∧ t.node? q ≠ some .directory ∧ (∀ target, t.node? q ≠ some (.link target)) ∧
      t' = t.insert q (.file bytes) ∧ t.locate cwd .writing p = .ok q ∧
        ∀ aim, aim ≠ .entry → t'.locate cwd aim p = .ok q := by
  obtain ⟨q, hlocate, hother, rfl⟩ := writeFile_ok h
  obtain ⟨hpass, hwalk⟩ := locate_eq_ok.1 hlocate
  have hunlinked := walk_ne_link (by decide) (hcwd.startOf p) hwalk
  have hroot : q ≠ [] := by
    rintro rfl
    exact hother (node?_root t)
  exact ⟨q, hroot, hother, hunlinked, rfl, hlocate, fun aim haim =>
    locate_eq_ok.2 ⟨hpass, walk_written haim hroot hother hunlinked hwalk⟩⟩

/-- **What has been written is read.** -/
theorem readFile_of_writeFile (hcwd : Grounded t cwd) (h : t.writeFile cwd p bytes = .ok t') :
    t'.readFile cwd p = .ok bytes := by
  obtain ⟨q, hroot, -, -, rfl, -, hlocate⟩ := writeFile_spec hcwd h
  exact readFile_eq_ok.2 (status_eq_ok.2 ⟨q, hlocate .target (by decide), node?_insert_self hroot⟩)

/-- Writing in one place twice is writing there once. -/
theorem insert_insert {place : Place} (node node' : Node) :
    (t.insert place node).insert place node' = t.insert place node' := by
  have herase : (t.insert place node).erase place = t.erase place := by
    unfold insert erase
    simp
  rw [insert, herase]
  rfl

theorem writeFile_of_locate (hlocate : t.locate cwd .writing p = .ok q)
    (hother : t.node? q ≠ some .directory) :
    t.writeFile cwd p bytes = .ok (t.insert q (.file bytes)) := by
  unfold writeFile
  rw [hlocate]
  dsimp only
  split
  · next hnode => exact absurd hnode hother
  · rfl

/-- Whether a file can be written does not depend on what is written. -/
theorem exists_writeFile (h : t.writeFile cwd p bytes = .ok t') (bytes' : List UInt8) :
    ∃ t'', t.writeFile cwd p bytes' = .ok t'' := by
  obtain ⟨q, hlocate, hother, -⟩ := writeFile_ok h
  exact ⟨_, writeFile_of_locate hlocate hother⟩

/-- **Whatever has been written can be written anew**, as if for the first time. -/
theorem writeFile_writeFile (hcwd : Grounded t cwd) (h : t.writeFile cwd p bytes = .ok t')
    (bytes' : List UInt8) : t'.writeFile cwd p bytes' = t.writeFile cwd p bytes' := by
  obtain ⟨q, hroot, hother, -, rfl, hfirst, hlocate⟩ := writeFile_spec hcwd h
  have hother' : (t.insert q (.file bytes)).node? q ≠ some .directory := by
    rw [node?_insert_self hroot]
    rintro ⟨⟩
  rw [writeFile_of_locate (hlocate .writing (by decide)) hother', insert_insert,
    writeFile_of_locate hfirst hother]

/-- What was a directory is one after a file has been written, and its paths lead to it still. -/
theorem isDirectory_of_writeFile {p' : Path} (hcwd : Grounded t cwd)
    (h : t.writeFile cwd p bytes = .ok t') (hdirectory : t.isDirectory? cwd p' = .ok true) :
    Grounded t' cwd ∧ t'.isDirectory? cwd p' = .ok true := by
  obtain ⟨q, -, hother, hunlinked, rfl, -⟩ := writeFile_spec hcwd h
  have hways : WaysIn t (t.insert q (.file bytes)) :=
    .of_agree (fun _ => node?_insert_of_ne) hother hunlinked
  have hcwd' : Grounded (t.insert q (.file bytes)) cwd :=
    hcwd.of_agree (fun _ => node?_insert_of_ne) hother
  obtain ⟨hpass, n, d, hn, hleads⟩ := (isDirectory_iff hcwd).1 hdirectory
  exact ⟨hcwd', (isDirectory_iff hcwd').2 ⟨hpass, n, d, hn, hleads.mono hways⟩⟩

end SourceDrift.FileTree
