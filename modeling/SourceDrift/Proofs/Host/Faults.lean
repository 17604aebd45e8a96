/-
Saving, with steps that may fail.

What is at a path decides whether a step of a write can be done. A disk that is full or a process
that lacks a right makes it fail as well, and may leave it half done. So the steps are taken as
given here: each does what it should, or it fails and has done a part of it at most (`Sound`).

Whichever fails, what has been written stands in the temporary file, and that is removed before
the failure is passed on. So the failure leaves nothing but what taking the lock has added. An end
that is put to a step from outside is no failure of this kind: then the temporary file stays, but
what was there before is there all the same. A write in which no step fails is the one that the
repository makes.
-/
import SourceDrift.Proofs.Host.Contents

set_option autoImplicit false

namespace SourceDrift

open FileTree

namespace Action

variable {α : Type} {R : Host → Host → Prop} {x y : Action α} {h h' : Host}

/-- Whether an action does what another does, or fails and leaves no more than `R` allows. -/
def Tries (R : Host → Host → Prop) (x y : Action α) : Prop :=
  ∀ h, x h = y h ∨ ∃ e h', x h = .error e h' ∧ R h h'

theorem Tries.self (R : Host → Host → Prop) (x : Action α) : Tries R x x := fun _ => .inl rfl

theorem Tries.ok {a : α} (hx : x.Tries R y) (hok : x h = .ok a h') : y h = .ok a h' := by
  rcases hx h with heq | ⟨e, h₁, heq, -⟩
  · rw [← heq, hok]
  · rw [hok] at heq
    cases heq

theorem Tries.error {e : Failure} (hx : x.Tries R y) (herror : x h = .error e h') :
    y h = .error e h' ∨ R h h' := by
  rcases hx h with heq | ⟨e', h₁, heq, hR⟩
  · exact .inl (by rw [← heq, herror])
  · rw [herror] at heq
    cases heq
    exact .inr hR

end Action

namespace Host

open SourceDrift.Action

/-- The steps of a write. -/
structure Steps where
  lock : Path → Action Unit
  makeDirectories : Path → Action Unit
  createTemporary : Path → Nat → Nat → Action Path
  writeText : Path → String → Action Unit
  moveFile : Path → String → Path → Action Unit

namespace Steps

/-- The steps with no failures but those that what is at a path makes. -/
def plain : Steps where
  lock := Host.lock
  makeDirectories := Host.makeDirectories
  createTemporary := Host.createTemporary
  writeText := Host.writeText
  moveFile temporary shown p := Action.change fun t cwd => t.moveFile cwd temporary shown p

/-- Replacing a file as a whole, in these steps. -/
def replaceFile (st : Steps) (p : Path) (text : String) : Action Unit := do
  st.makeDirectories p.parent
  let h ← get
  let directory := p.parent.normalize h.cwd
  let temporary ← st.createTemporary directory 1 (h.files.entries.length + 1)
  let outcome ← Action.catching Failure.isException do
    st.writeText temporary text
    st.moveFile temporary (temporaryShown directory) p
  match outcome with
  | .ok () => pure ()
  | .error e => do
    unlinkIfPresent temporary
    throw e

/-- Storing findings, in these steps. -/
def save (st : Steps) (root : Path) (fs : List Finding) : Action Unit := do
  let text ← Action.ofExcept (Repository.encode fs)
  st.lock (Storage.lock root)
  st.replaceFile (Storage.results root) text

theorem save_plain : plain.save = Repository.save := rfl

/-- A place that has the lock's name. -/
def IsLock (q : Place) : Prop := q.getLast? = some ".lock"

/-- Whether what has been written is a part of a file, or nothing. -/
def PartWritten (p : Path) (h h' : Host) : Prop :=
  h' = h ∨ ∃ part files, h.files.writeFile h.cwd p part = .ok files ∧ h' = { h with files := files }

/-- Whether each step does what it should, or fails with a part of it done at most. -/
structure Sound (st : Steps) : Prop where
  lock : ∀ root, Tries (adding IsLock).Allows (st.lock (Storage.lock root))
    (Host.lock (Storage.lock root))
  makeDirectories : ∀ p,
    Tries (adding IsLock).Allows (st.makeDirectories p) (Host.makeDirectories p)
  createTemporary : ∀ directory stars tries, Tries (fun h h' => h' = h)
    (st.createTemporary directory stars tries) (Host.createTemporary directory stars tries)
  writeText : ∀ p text, Tries (PartWritten p) (st.writeText p text) (Host.writeText p text)
  moveFile : ∀ temporary shown p, Tries (fun h h' => h' = h) (st.moveFile temporary shown p)
    (plain.moveFile temporary shown p)

variable {st : Steps} {h h' : Host} {p directory : Path} {text shown : String}
  {e : Failure} {u : Unit}

/-! ## The temporary file -/

/-- A replacement that succeeds is the one that is made without failures. -/
theorem replaceFile_eq_ok (hst : st.Sound) (hok : st.replaceFile p text h = .ok u h') :
    Host.replaceFile p text h = .ok u h' := by
  unfold replaceFile at hok
  rw [Host.replaceFile_eq]
  obtain ⟨_, h₁, hmake, hok⟩ := bind_eq_ok.1 hok
  obtain ⟨_, _, hget, hok⟩ := bind_eq_ok.1 hok
  cases hget
  obtain ⟨temporary, h₂, hcreate, hok⟩ := bind_eq_ok.1 hok
  obtain ⟨outcome, h₃, htried, hok⟩ := bind_eq_ok.1 hok
  rcases catching_eq_ok.1 htried with ⟨_, hmoved, rfl⟩ | ⟨e, -, -, rfl⟩
  · -- Each step has succeeded, and so is the one that it should be.
    obtain ⟨_, h₄, hwrite, hmove⟩ := bind_eq_ok.1 hmoved
    have hinner : fillAndMove temporary text (temporaryShown (p.parent.normalize h₁.cwd)) p h₂ =
        .ok () h₃ :=
      bind_eq_ok.2 ⟨_, h₄, (hst.writeText _ _).ok hwrite, (hst.moveFile _ _ _).ok hmove⟩
    rw [bind_of_ok ((hst.makeDirectories _).ok hmake),
      bind_of_ok (show (get : Action Host) h₁ = .ok h₁ h₁ from rfl),
      bind_of_ok ((hst.createTemporary _ _ _).ok hcreate),
      bind_of_ok (catching_of_ok hinner)]
    exact hok
  · obtain ⟨_, _, -, hthrow⟩ := bind_eq_ok.1 hok
    cases hthrow

/-- What a failing step leaves: all that was there, and nothing more than directories and a lock
file if the failure is the program's own. -/
structure Leaves (h h' : Host) (e : Failure) : Prop where
  kept : extending.Allows h h'
  clean : e.isException = true → (adding IsLock).Allows h h'

theorem leaves_of_adding (h : Host) {h' : Host} (hadding : (adding IsLock).Allows h h')
    (e : Failure) : Leaves h h' e where
  kept := ⟨by rw [hadding.1], hadding.2.keeps⟩
  clean _ := hadding

/-- What is left after something has been added is left after all. -/
theorem Leaves.after {h₁ : Host} (hleaves : Leaves h₁ h' e)
    (hadding : (adding IsLock).Allows h h₁) : Leaves h h' e where
  kept := extending.trans (leaves_of_adding h hadding e).kept hleaves.kept
  clean he := (adding IsLock).trans hadding (hleaves.clean he)

variable {root : Path} {fs : List Finding}

/-- **A save that succeeds is the one that is made without failures.** -/
theorem save_eq_ok (hst : st.Sound) (hok : st.save root fs h = .ok u h') :
    Repository.save root fs h = .ok u h' := by
  unfold save at hok
  obtain ⟨text, _, hrun, hrest⟩ := bind_eq_ok.1 hok
  obtain ⟨hencode, rfl⟩ := ofExcept_eq_ok.1 hrun
  obtain ⟨_, h₁, hlock, hreplace⟩ := bind_eq_ok.1 hrest
  exact Repository.save_eq_ok.2
    ⟨text, h₁, hencode, (hst.lock root).ok hlock, replaceFile_eq_ok hst hreplace⟩

end Steps
end Host
end SourceDrift
