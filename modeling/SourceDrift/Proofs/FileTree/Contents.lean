/-
Which bytes get into files.

`WritesOnly P t t'` bounds what operations may have done between two trees: a file that was
not there as it is has bytes of which `P` holds. Directories and links may come and go. The
bound does not look at places, so it needs nothing of where a path leads; a single operation
writes what it is given at one place, and a file that is removed leaves nothing behind.

Moving is the exception: it brings old bytes to a new place. Moving a file that was made a
moment before is treated as a whole, by `replaced_by_moving`.
-/
import SourceDrift.Proofs.FileTree.Operations

set_option autoImplicit false

namespace SourceDrift.FileTree

variable {P : List UInt8 → Prop} {t t' t'' : FileTree} {cwd q place : Place} {node : Node}
  {p : Path} {bytes : List UInt8}

/-! ## The bound -/

/-- Whether the files of a tree were there before as they are, but for some contents. -/
def WritesOnly (P : List UInt8 → Prop) (t t' : FileTree) : Prop :=
  ∀ q bytes, t'.node? q = some (.file bytes) → t.node? q = some (.file bytes) ∨ P bytes

namespace WritesOnly

theorem refl (t : FileTree) : WritesOnly P t t := fun _ _ hfile => .inl hfile

theorem trans (h : WritesOnly P t t') (h' : WritesOnly P t' t'') : WritesOnly P t t'' := by
  intro q bytes hfile
  rcases h' q bytes hfile with hfile | hP
  · exact h q bytes hfile
  · exact .inr hP

theorem mono {Q : List UInt8 → Prop} (h : WritesOnly P t t') (hPQ : ∀ bytes, P bytes → Q bytes) :
    WritesOnly Q t t' :=
  fun q bytes hfile => (h q bytes hfile).imp_right (hPQ bytes)

end WritesOnly

/-- Putting a node at a place writes what the node holds. -/
theorem writesOnly_insert (hnode : ∀ bytes, node = .file bytes → P bytes) :
    WritesOnly P t (t.insert place node) := by
  intro q bytes hfile
  by_cases hroot : q = []
  · rw [hroot, node?_root] at hfile
    cases hfile
  rw [node?_insert _ _ _ _ hroot] at hfile
  by_cases hq : q = place
  · rw [if_pos hq] at hfile
    exact .inr (hnode bytes (Option.some.inj hfile))
  · rw [if_neg hq] at hfile
    exact .inl hfile

theorem writesOnly_erase : WritesOnly P t (t.erase place) := by
  intro q bytes hfile
  by_cases hroot : q = []
  · rw [hroot, node?_root] at hfile
    cases hfile
  rw [node?_erase _ _ _ hroot] at hfile
  split at hfile
  · cases hfile
  · exact .inl hfile

/-! ## Single operations -/

theorem writesOnly_makeDirectories (depth : Nat) (t : FileTree) (cwd : Place) (p : Path) :
    WritesOnly P t (makeDirectories depth t cwd p).2 := by
  refine makeDirectories_rel .refl .trans (fun {t t' p} h => ?_) depth t p
  obtain ⟨place, -, -, rfl⟩ := makeDirectory_ok h
  exact writesOnly_insert (fun bytes hfile => by cases hfile)

theorem writesOnly_createFile (hP : P []) (h : t.createFile cwd p = .ok t') :
    WritesOnly P t t' := by
  obtain ⟨place, -, -, rfl⟩ := createFile_ok h
  refine writesOnly_insert (fun bytes hfile => ?_)
  cases hfile
  exact hP

theorem writesOnly_writeFile (hP : P bytes) (h : t.writeFile cwd p bytes = .ok t') :
    WritesOnly P t t' := by
  obtain ⟨place, -, -, rfl⟩ := writeFile_ok h
  refine writesOnly_insert (fun written hfile => ?_)
  cases hfile
  exact hP

theorem writesOnly_ensureUnlinked (hP : P []) (h : t.ensureUnlinked cwd p = .ok t') :
    WritesOnly P t t' := by
  unfold ensureUnlinked at h
  split at h
  · cases h
  · split at h
    · cases h
      refine writesOnly_insert (fun bytes hfile => ?_)
      cases hfile
      exact hP
    · cases h
      exact .refl t
    · cases h
    · cases h

theorem writesOnly_unlink (h : t.unlink cwd p = .ok t') : WritesOnly P t t' := by
  unfold unlink at h
  split at h
  · cases h
  · split at h
    · cases h
    · cases h
    · cases h
      exact writesOnly_erase

theorem writesOnly_unlinkIfPresent (h : t.unlinkIfPresent cwd p = .ok t') : WritesOnly P t t' := by
  unfold unlinkIfPresent at h
  split at h
  · next hunlink =>
    cases h
    exact writesOnly_unlink hunlink
  · cases h
    exact .refl t
  · cases h

/-- **Replacing a file by a new one writes that one.** -/
theorem writesOnly_replaced {t₁ t₂ t₃ : FileTree} {name source : String} {p' : Path} (hP : P bytes)
    (hidle : isIdle name = false) (hup : name ≠ "..")
    (hcreate : t.createFile cwd (p.child name) = .ok t₁)
    (hwrite : t₁.writeFile cwd (p.child name) bytes = .ok t₂)
    (hmove : t₂.moveFile cwd (p.child name) source p' = .ok t₃) : WritesOnly P t t₃ := by
  obtain ⟨place, -, -, -, hfile, hrest⟩ := replaced_by_moving hidle hup hcreate hwrite hmove
  intro q found hfound
  by_cases hq : q = place
  · rw [hq, hfile] at hfound
    cases hfound
    exact .inr hP
  · rw [hrest q hq] at hfound
    exact .inl hfound

/-! ## Reading -/

/-- A walk to something that is there goes the same way where other things are added. -/
theorem walk_mono {aim : Aim} {links : Nat} {here : Place} {parts : List String}
    (hextends : Extends t t') (hq : t.node? q = some node)
    (h : t.walk aim links here parts = .ok q) :
    t'.walk aim links here parts = .ok q := by
  rw [walk_eq_ok] at h ⊢
  induction h with
  | nil => exact .nil
  | idle hidle _ ih => exact .idle hidle (ih hq)
  | up _ ih => exact .up (ih hq)
  | last hname hend =>
    have hsame := (hextends _ _ hq).trans hq.symm
    exact .last hname ⟨by rw [hsame]; exact hend.notDirectory,
      by rw [hsame]; exact hend.notFollowed⟩
  | down hname haim hnode _ ih => exact .down hname haim (hextends _ _ hnode) (ih hq)
  | link hname haim hnode hends _ ih => exact .link hname haim (hextends _ _ hnode) hends (ih hq)

/-- **What is at a path stays there** when other things are added. -/
theorem status_mono (hextends : Extends t t') (h : t.status cwd p = .ok node) :
    t'.status cwd p = .ok node := by
  obtain ⟨place, hlocate, hnode⟩ := status_eq_ok.1 h
  obtain ⟨hpass, hwalk⟩ := locate_eq_ok.1 hlocate
  exact status_eq_ok.2
    ⟨place, locate_eq_ok.2 ⟨hpass, walk_mono hextends hnode hwalk⟩, hextends _ _ hnode⟩

theorem readFile_eq_ok : t.readFile cwd p = .ok bytes ↔ t.status cwd p = .ok (.file bytes) := by
  unfold readFile
  cases t.status cwd p with
  | error e => simp
  | ok node =>
    cases node with
    | file found => simp
    | directory | link target => simp

theorem readText_eq_ok {text : String} :
    t.readText cwd p = .ok text ↔
      ∃ bytes, t.readFile cwd p = .ok bytes ∧ Utf8.decodeText bytes = .ok text := by
  unfold readText
  cases t.readFile cwd p with
  | error e => simp
  | ok bytes =>
    cases htext : Utf8.decodeText bytes with
    | error fault => simp [htext]
    | ok decoded => simp [htext]

/-- What keeps a place from being found is the system's or the path's own fault. -/
theorem isOfInput_of_locate {aim : Aim} {e : Failure} (h : t.locate cwd aim p = .error e) :
    e.isOfInput = true := by
  unfold locate at h
  split at h
  · cases h
    rfl
  · split at h
    · cases h
      rfl
    · split at h
      · cases h
      · cases h
        rfl

theorem isOfInput_of_status {e : Failure} (h : t.status cwd p = .error e) : e.isOfInput = true := by
  unfold status at h
  split at h
  · next hlocate =>
    cases h
    exact isOfInput_of_locate hlocate
  · split at h
    · cases h
      rfl
    · cases h

theorem isOfInput_of_ensureUnlinked {e : Failure} (h : t.ensureUnlinked cwd p = .error e) :
    e.isOfInput = true := by
  unfold ensureUnlinked at h
  split at h
  · next hlocate =>
    cases h
    exact isOfInput_of_locate hlocate
  · split at h
    · cases h
    · cases h
    · cases h
      rfl
    · cases h
      rfl

/-- What keeps a file from being read as text is the system's, the path's or the file's own
fault. -/
theorem isOfInput_of_readText {e : Failure} (h : t.readText cwd p = .error e) :
    e.isOfInput = true := by
  unfold readText readFile at h
  cases hstatus : t.status cwd p with
  | error fault =>
    rw [hstatus] at h
    cases h
    exact isOfInput_of_status hstatus
  | ok node =>
    rw [hstatus] at h
    cases node with
    | file bytes =>
      dsimp only at h
      split at h
      · cases h
      · cases h
        rfl
    | directory | link _ =>
      cases h
      rfl

/-- What is read of a file that was there before is what was in it then. -/
theorem readFile_of_extends (hextends : Extends t t') (hthere : t.status cwd p = .ok node)
    (h : t'.readFile cwd p = .ok bytes) : t.readFile cwd p = .ok bytes := by
  have hsame := status_mono hextends hthere
  rw [readFile_eq_ok] at h ⊢
  rw [hsame] at h
  rw [hthere, h]

end SourceDrift.FileTree
