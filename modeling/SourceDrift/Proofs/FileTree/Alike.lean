/-
Trees that cannot be told apart.

How the entries of a tree are listed is of no account: an operation goes by what is at each place,
and so it does the same in two trees that have the same at each place.
-/
import SourceDrift.Proofs.FileTree.Operations

set_option autoImplicit false

namespace SourceDrift.FileTree

variable {t t' : FileTree}

/-- Whether two trees have the same at each place. -/
def Alike (t t' : FileTree) : Prop := ∀ q, t'.node? q = t.node? q

namespace Alike

theorem refl (t : FileTree) : Alike t t := fun _ => rfl

/-! ## What is found -/

theorem walkWith_eq (h : Alike t t')
    (onLink : Place → List String → Except SystemError Place) (aim : Aim)
    (here : Place) (parts : List String) :
    walkWith onLink t' aim here parts = walkWith onLink t aim here parts := by
  -- By the parts: at each of them a walk asks once what is at a place, and then goes on or stops.
  induction parts generalizing here with
  | nil => rfl
  | cons name rest ih =>
    rw [walkWith, walkWith, h (here ++ [name])]
    simp only [ih]

/-- **A walk goes the same way in both.** -/
theorem walk_eq (h : Alike t t') (aim : Aim) (links : Nat) :
    walk t' aim links = walk t aim links := by
  induction links with
  | zero => exact funext fun here => funext fun parts => h.walkWith_eq _ aim here parts
  | succ links ih =>
    rw [walk, walk, ih]
    exact funext fun here => funext fun parts => h.walkWith_eq _ aim here parts

theorem locate_eq (h : Alike t t') (cwd : Place) (aim : Aim) (p : Path) :
    t'.locate cwd aim p = t.locate cwd aim p := by
  rw [locate, locate, h.walk_eq]

theorem status_eq (h : Alike t t') (cwd : Place) (p : Path) : t'.status cwd p = t.status cwd p := by
  rw [status, status, h.locate_eq]
  simp only [h _]

theorem exists?_eq (h : Alike t t') (cwd : Place) (p : Path) :
    t'.exists? cwd p = t.exists? cwd p := by
  rw [exists?, exists?, test, test, h.status_eq]

theorem readText_eq (h : Alike t t') (cwd : Place) (p : Path) :
    t'.readText cwd p = t.readText cwd p := by
  rw [readText, readText, readFile, readFile, h.status_eq]

/-! ## What is changed -/

theorem insert (h : Alike t t') (place : Place) (node : Node) :
    Alike (t.insert place node) (t'.insert place node) := by
  intro q
  by_cases hroot : q = []
  · rw [hroot, node?_root, node?_root]
  · rw [node?_insert _ _ _ _ hroot, node?_insert _ _ _ _ hroot, h q]

/-- Whether a file is written in both, so that they still cannot be told apart, or in neither. -/
theorem writeFile (h : Alike t t') (cwd : Place) (p : Path) (bytes : List UInt8) :
    (∃ e, t.writeFile cwd p bytes = .error e ∧ t'.writeFile cwd p bytes = .error e) ∨
      ∃ s s', t.writeFile cwd p bytes = .ok s ∧ t'.writeFile cwd p bytes = .ok s' ∧ Alike s s' := by
  unfold FileTree.writeFile
  rw [h.locate_eq]
  cases t.locate cwd .writing p with
  | error e => exact .inl ⟨e, rfl, rfl⟩
  | ok place =>
    dsimp only
    rw [h place]
    split
    · exact .inl ⟨_, rfl, rfl⟩
    · exact .inr ⟨_, _, rfl, rfl, h.insert place _⟩

theorem makeDirectory (h : Alike t t') (cwd : Place) (p : Path) :
    (∃ e, t.makeDirectory cwd p = .error e ∧ t'.makeDirectory cwd p = .error e) ∨
      ∃ s s', t.makeDirectory cwd p = .ok s ∧ t'.makeDirectory cwd p = .ok s' ∧ Alike s s' := by
  unfold FileTree.makeDirectory
  rw [h.locate_eq]
  cases t.locate cwd .entry p with
  | error e => exact .inl ⟨e, rfl, rfl⟩
  | ok place =>
    dsimp only
    rw [h place]
    split
    · exact .inr ⟨_, _, rfl, rfl, h.insert place _⟩
    · exact .inl ⟨_, rfl, rfl⟩

end Alike
end SourceDrift.FileTree
