/-
A path and the same path from the root.

A relative path is followed from the current directory. The path with the way from the root to that
directory before it leads to the same places, because the way goes through directories only. An
operation on the one path does therefore what it does on the other. What it says when it fails is
not quite the same, since a failure names the path; so answers are compared up to that.

Making directories is the one operation that does several things, and it may take more of them on
the longer path. But above what the relative path names everything is there already.
-/
import Mathlib.Data.List.Induction
import SourceDrift.Proofs.FileTree.Removal
import SourceDrift.Proofs.Path

set_option autoImplicit false

namespace SourceDrift

/-- A path, seen from the root. -/
def Path.fromRoot (cwd : List String) (p : Path) : Path := Path.join ⟨"/", cwd⟩ p

namespace FileTree

/-! ## Shorter paths -/

theorem utf8ByteSize_intercalate_append (parts : List String) (name : String) :
    ("/".intercalate parts).utf8ByteSize ≤ ("/".intercalate (parts ++ [name])).utf8ByteSize := by
  induction parts with
  | nil => exact Nat.zero_le _
  | cons part rest ih =>
    cases rest with
    | nil =>
      rw [List.singleton_append, String.intercalate_cons_cons, String.intercalate_singleton,
        String.utf8ByteSize_append, String.utf8ByteSize_append]
      omega
    | cons next rest =>
      rw [List.cons_append, List.cons_append, String.intercalate_cons_cons,
        String.intercalate_cons_cons, String.utf8ByteSize_append, String.utf8ByteSize_append,
        String.utf8ByteSize_append, String.utf8ByteSize_append]
      rw [List.cons_append] at ih
      omega

/-- A path that is not empty can be handed to the file system if a name behind it can. -/
theorem Passable.of_child {p : Path} {name : String} (hpass : Passable (p.child name))
    (hparts : p.parts ≠ []) : Passable p where
  noNul := by
    have hnul := hpass.noNul
    rw [Path.hasNul, Path.child, List.any_append, Bool.or_eq_false_iff] at hnul
    exact hnul.1
  short := by
    have hshort := hpass.short
    have hle := utf8ByteSize_intercalate_append p.parts name
    rw [Path.toString, Path.child, if_neg (by simp), String.utf8ByteSize_append] at hshort
    rw [Path.toString, if_neg (fun h => hparts h.2), String.utf8ByteSize_append]
    dsimp only at hshort
    omega

variable {t t' made : FileTree} {cwd directory : Place} {p q : Path} {aim : Aim}
  {parts : List String} {name : String} {links : Nat}

/-- A path without parts is a short one. -/
theorem Passable.parent {p : Path} (hpass : Passable (p.child name))
    (hanchor : p.anchor = "" ∨ p.anchor = "/") : Passable p := by
  by_cases hparts : p.parts = []
  · obtain ⟨anchor, parts⟩ := p
    dsimp only at hanchor hparts
    subst hparts
    rcases hanchor with rfl | rfl
    · exact ⟨by decide, by decide⟩
    · exact ⟨by decide, by decide⟩
  · exact hpass.of_child hparts

/-! ## Answers -/

/-- Whether two operations answer the same, or fail for one reason, whatever path they name. -/
def Concur {α : Type} (r r' : Except Failure α) : Prop :=
  (∃ a, r = .ok a ∧ r' = .ok a) ∨
    ∃ cause path path', r = .error (.system cause path) ∧ r' = .error (.system cause path')

namespace Concur

variable {α : Type} {r r' : Except Failure α} {a : α}

theorem ok (a : α) : Concur (.ok a) (.ok a) := .inl ⟨a, rfl, rfl⟩

theorem error (cause : SystemError) (path path' : String) :
    Concur (α := α) (.error (.system cause path)) (.error (.system cause path')) :=
  .inr ⟨cause, path, path', rfl, rfl⟩

theorem eq_ok_iff (h : Concur r r') : r = .ok a ↔ r' = .ok a := by
  rcases h with ⟨b, rfl, rfl⟩ | ⟨cause, path, path', rfl, rfl⟩
  · exact Iff.rfl
  · exact ⟨nofun, nofun⟩

theorem error_iff {cause : SystemError} (h : Concur r r') :
    (∃ path, r = .error (.system cause path)) ↔ ∃ path, r' = .error (.system cause path) := by
  rcases h with ⟨b, rfl, rfl⟩ | ⟨cause', path, path', rfl, rfl⟩
  · simp
  · simp

/-- What is done with a place that has been found is the same, if it is for each place. -/
theorem of_place {r r' : Except Failure Place} {f f' : Place → Except Failure α}
    (hf : ∀ place, Concur (f place) (f' place)) : Concur r r' →
    Concur (match r with | .error e => .error e | .ok place => f place)
      (match r' with | .error e => .error e | .ok place => f' place) := by
  rintro (⟨place, rfl, rfl⟩ | ⟨cause, path, path', rfl, rfl⟩)
  · exact hf place
  · exact .error cause path path'

end Concur

/-- **A walk through directories may as well start at the root.** -/
theorem Grounded.walk (hcwd : Grounded t cwd) (hparts : parts ≠ [""]) :
    t.walk aim links [] (cwd ++ parts) = t.walk aim links cwd parts := by
  induction hcwd generalizing parts with
  | root => rfl
  | @down d name hd hname hnode ih =>
    have hslash : name :: parts ≠ [""] := by
      rintro ⟨⟩
      cases hname.notIdle
    -- The walk from the directory above takes one step, to a directory that is there.
    rw [List.append_assoc, List.singleton_append, ih hslash,
      walk_down hname (fun h => hparts h.2) hnode]

/-! ## Operations on both paths -/

theorem isAbsolute_fromRoot (cwd : Place) (p : Path) : (p.fromRoot cwd).isAbsolute = true := by
  unfold Path.fromRoot Path.join
  by_cases habsolute : p.isAbsolute = true
  · rw [if_pos habsolute]
    exact habsolute
  · rw [if_neg habsolute]
    rfl

theorem fromRoot_of_isAbsolute (habsolute : p.isAbsolute = true) : p.fromRoot cwd = p := by
  rw [Path.fromRoot, Path.join, if_pos habsolute]

/-- A path from the root has the comparable form of the path itself. -/
theorem key_fromRoot (cwd : Place) (p : Path) : (p.fromRoot cwd).key cwd = p.key cwd := by
  unfold Path.key Path.normalize
  rw [← Path.fromRoot, ← Path.fromRoot, fromRoot_of_isAbsolute (isAbsolute_fromRoot cwd p)]

theorem fromRoot_child (cwd : Place) (p : Path) (name : String) :
    (p.child name).fromRoot cwd = (p.fromRoot cwd).child name := Path.join_child ..

theorem walk_fromRoot (hcwd : Grounded t cwd) (hp : p.Proper) :
    t.walk aim links [] (p.fromRoot cwd).parts = t.walk aim links (startOf cwd p) p.parts := by
  have hslash : p.parts ≠ [""] := by
    intro hparts
    have hpart := hp.parts "" (by rw [hparts]; exact List.mem_cons_self)
    cases hpart.notIdle
  unfold Path.fromRoot Path.join startOf
  by_cases habsolute : p.isAbsolute = true
  · rw [if_pos habsolute, if_pos habsolute]
  · rw [if_neg habsolute, if_neg habsolute]
    exact hcwd.walk hslash

theorem locate_of_passable (hpass : Passable p) :
    t.locate cwd aim p =
      match t.walk aim 40 (startOf cwd p) p.parts with
      | .ok place => .ok place
      | .error cause => .error (.system cause p.toString) := by
  rw [locate, if_neg (by rw [hpass.noNul]; exact Bool.false_ne_true),
    if_neg (Nat.not_lt_of_le hpass.short)]
  rfl

/-- Whether a path and the same path from the root can both be handed to the file system. -/
structure BothPassable (cwd : Place) (p : Path) : Prop where
  proper : p.Proper
  here : Passable p
  fromRoot : Passable (p.fromRoot cwd)

theorem BothPassable.above (hp : BothPassable cwd (Path.child ⟨"", parts⟩ name)) :
    BothPassable cwd ⟨"", parts⟩ := by
  have hroot := hp.fromRoot
  rw [fromRoot_child] at hroot
  exact ⟨⟨.inl rfl, fun part hpart => hp.proper.parts part (List.mem_append_left _ hpart)⟩,
    hp.here.parent (.inl rfl), hroot.parent (.inr rfl)⟩

/-- **Both paths lead to one place**, from wherever the longer one is followed. -/
theorem concur_locate (hcwd : Grounded t cwd) (hp : BothPassable cwd p) (aim : Aim)
    (directory : Place) :
    Concur (t.locate cwd aim p) (t.locate directory aim (p.fromRoot cwd)) := by
  have hstart : startOf directory (p.fromRoot cwd) = [] := if_pos (isAbsolute_fromRoot cwd p)
  -- Only the path that a failure names is different.
  rw [locate_of_passable hp.here, locate_of_passable hp.fromRoot, hstart,
    walk_fromRoot hcwd hp.proper]
  cases t.walk aim 40 (startOf cwd p) p.parts with
  | ok place => exact .ok place
  | error cause => exact .error cause _ _

theorem concur_status (hcwd : Grounded t cwd) (hp : BothPassable cwd p) :
    Concur (t.status cwd p) (t.status cwd (p.fromRoot cwd)) := by
  refine Concur.of_place (fun place => ?_) (concur_locate hcwd hp .target cwd)
  cases t.node? place with
  | none => exact .error _ _ _
  | some node => exact .ok node

theorem concur_isDirectory (hcwd : Grounded t cwd) (hp : BothPassable cwd p) :
    Concur (t.isDirectory? cwd p) (t.isDirectory? cwd (p.fromRoot cwd)) := by
  unfold isDirectory? test
  rcases concur_status hcwd hp with ⟨node, hnode, hnode'⟩ | ⟨cause, path, path', hfails, hfails'⟩
  · rw [hnode, hnode']
    exact .ok _
  · rw [hfails, hfails']
    dsimp only
    by_cases habsent : cause.meansAbsent = true
    · rw [if_pos habsent, if_pos habsent]
      exact .ok false
    · rw [if_neg habsent, if_neg habsent]
      exact .error cause path path'

theorem concur_readFile (hcwd : Grounded t cwd) (hp : BothPassable cwd p) :
    Concur (t.readFile cwd p) (t.readFile cwd (p.fromRoot cwd)) := by
  unfold readFile
  rcases concur_status hcwd hp with ⟨node, hnode, hnode'⟩ | ⟨cause, _, _, hfails, hfails'⟩
  · rw [hnode, hnode']
    cases node with
    | file bytes => exact .ok bytes
    | directory | link _ => exact .error _ _ _
  · rw [hfails, hfails']
    exact .error cause _ _

theorem concur_makeDirectory (hcwd : Grounded t cwd) (hp : BothPassable cwd p) :
    Concur (t.makeDirectory cwd p) (t.makeDirectory cwd (p.fromRoot cwd)) := by
  refine Concur.of_place (fun place => ?_) (concur_locate hcwd hp .entry cwd)
  cases t.node? place with
  | none => exact .ok _
  | some node => exact .error _ _ _

theorem concur_unlink (hcwd : Grounded t cwd) (hp : BothPassable cwd p) :
    Concur (t.unlink cwd p) (t.unlink cwd (p.fromRoot cwd)) := by
  refine Concur.of_place (fun place => ?_) (concur_locate hcwd hp .entry cwd)
  cases t.node? place with
  | none => exact .error _ _ _
  | some node =>
    cases node with
    | directory => exact .error _ _ _
    | file _ | link _ => exact .ok _

theorem unlinkIfPresent_fromRoot (hcwd : Grounded t cwd) (hp : BothPassable cwd p)
    (h : t.unlinkIfPresent cwd p = .ok t') : t.unlinkIfPresent cwd (p.fromRoot cwd) = .ok t' := by
  unfold unlinkIfPresent at h ⊢
  rcases concur_unlink hcwd hp with ⟨_, hunlink, hunlink'⟩ | ⟨cause, _, _, hfails, hfails'⟩
  · rw [hunlink] at h
    rw [hunlink']
    exact h
  · rw [hfails] at h
    rw [hfails']
    cases cause with
    | notFound => exact h
    | _ => cases h

/-! ## Making directories -/

/-- One directory that is made, or is there, under the one path is so under the other. -/
theorem settleDirectory_fromRoot (hcwd : Grounded t cwd) (hp : BothPassable cwd p)
    (h : t.settleDirectory cwd p = (.ok (), made)) :
    t.settleDirectory cwd (p.fromRoot cwd) = (.ok (), made) := by
  have hmake := concur_makeDirectory hcwd hp
  rw [settleDirectory_eq_ok] at h ⊢
  rcases h with hmade | ⟨hthere, rfl, cause, path, hfails⟩
  · exact .inl (hmake.eq_ok_iff.1 hmade)
  · obtain ⟨path', hfails'⟩ := hmake.error_iff.1 ⟨path, hfails⟩
    exact .inr ⟨(concur_isDirectory hcwd hp).eq_ok_iff.1 hthere, rfl, cause, path', hfails'⟩

/-- **Making directories on a relative path** makes the same ones on the path from the root. That
names more of them, but those are there. -/
theorem makeDirectories_fromRoot {a b : Nat} (hcwd : Grounded t cwd)
    (hp : BothPassable cwd ⟨"", parts⟩)
    (hb : (Path.fromRoot cwd ⟨"", parts⟩).parts.length ≤ b)
    (h : makeDirectories a t cwd ⟨"", parts⟩ = (.ok (), made)) :
    makeDirectories b t cwd (Path.fromRoot cwd ⟨"", parts⟩) = (.ok (), made) := by
  -- The induction is on the relative path from its end, which is where making directories starts.
  induction parts using List.reverseRecOn generalizing t a b made with
  | nil =>
    have hhere : t.isDirectory? cwd ⟨"", []⟩ = .ok true :=
      (isDirectory_iff hcwd).2 ⟨hp.here, 0, cwd, Nat.zero_le _, .nil⟩
    rw [makeDirectories_of_isDirectory a hcwd hhere] at h
    rw [← h]
    exact makeDirectories_of_isDirectory b hcwd ((concur_isDirectory hcwd hp).eq_ok_iff.1 hhere)
  | append_singleton parts name ih =>
    have hchild : (⟨"", parts ++ [name]⟩ : Path) = Path.child ⟨"", parts⟩ name := rfl
    rw [hchild] at hp h hb ⊢
    have hlonger : (Path.fromRoot cwd (Path.child ⟨"", parts⟩ name)).parts.length =
        (Path.fromRoot cwd ⟨"", parts⟩).parts.length + 1 := by
      rw [fromRoot_child, Path.child, List.length_append, List.length_singleton]
    have hparent : (Path.fromRoot cwd (Path.child ⟨"", parts⟩ name)).parent =
        Path.fromRoot cwd ⟨"", parts⟩ := by
      rw [fromRoot_child, Path.parent_child]
    have hmake := concur_makeDirectory hcwd hp
    rw [makeDirectories_eq_ok] at h ⊢
    rcases h with ⟨hsettle, hother⟩ | ⟨path, less, t₁, hmissing, rfl, habove, hsettle⟩
    · refine .inl ⟨settleDirectory_fromRoot hcwd hp hsettle, fun path hmissing => ?_⟩
      obtain ⟨path', hmissing'⟩ := hmake.error_iff.2 ⟨path, hmissing⟩
      exact hother path' hmissing'
    · -- What is above is made first, and then this is tried once more.
      obtain ⟨path', hmissing'⟩ := hmake.error_iff.1 ⟨path, hmissing⟩
      rw [Path.parent_child] at habove
      have habove' : makeDirectories (b - 1) t cwd (Path.fromRoot cwd ⟨"", parts⟩) = (.ok (), t₁) :=
        ih hcwd hp.above (by omega) habove
      rw [← hparent] at habove'
      exact .inr ⟨path', b - 1, t₁, hmissing', by omega, habove',
        settleDirectory_fromRoot (hcwd.of_makeDirectories habove) hp hsettle⟩

end FileTree
end SourceDrift
