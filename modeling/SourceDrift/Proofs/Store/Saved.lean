/-
What loading finds where findings have been saved.

Saving goes by way of the lock and of a temporary file, and loading takes the lock again.
In between the tree has changed, if only at the place of the stored findings. Loading finds
them exactly if the workspace's directory is still reached: the one way to lose it is by
replacing a link on the way to it.
-/
import SourceDrift.Proofs.Host.Contents

set_option autoImplicit false

namespace SourceDrift.Repository

open FileTree Host SourceDrift.Action

variable {h h' : Host} {root : Path} {fs : List Finding} {u : Unit}

/-- Whether a text stands where a workspace's findings are stored, in a tree that differs in
this from one in which the workspace was locked. -/
structure Stored (h : Host) (root : Path) (text : String) : Prop where
  passable : Passable (Storage.results root)
  replaced : ∃ t place, Locked t h.cwd root place ∧
    t.node? (place ++ ["analysis-results.json"]) ≠ some .directory ∧
    h.files.node? (place ++ ["analysis-results.json"]) = some (.file (Utf8.encode text)) ∧
    ∀ q, q ≠ place ++ ["analysis-results.json"] → h.files.node? q = t.node? q

/-- Whether a world is another in which a text has been put where the findings of a workspace are
stored. Before that the workspace was locked, in the tree `t`, and its path led to `place`. -/
structure SavedTo (root : Path) (text : String) (place : Place) (t : FileTree) (h h' : Host) :
    Prop where
  onlyFiles : h' = { h with files := h'.files }
  passable : Passable (Storage.results root)
  locked : Locked t h.cwd root place
  adds : Adds (· = place ++ [".lock"]) h.files t
  other : t.node? (place ++ ["analysis-results.json"]) ≠ some .directory
  file : h'.files.node? (place ++ ["analysis-results.json"]) = some (.file (Utf8.encode text))
  rest : ∀ q, q ≠ place ++ ["analysis-results.json"] → h'.files.node? q = t.node? q

/-- **Saving puts the text of the findings in one place**, and adds directories and the lock file
before that. -/
theorem savedTo_of_save (hroot : root.Proper) (hcwd : Grounded h.files h.cwd)
    (hsave : save root fs h = .ok u h') :
    ∃ text place t, encode fs = .ok text ∧ SavedTo root text place t h h' := by
  have honly := filesOnly_save root fs h
  rw [after_of_ok hsave] at honly
  obtain ⟨text, h₁, hencode, hlock, hreplace⟩ := save_eq_ok.1 hsave
  obtain ⟨hcwd₁, place, hlocked, hadds⟩ := adds_of_lock hroot hcwd hlock
  rw [← hcwd₁] at hlocked
  obtain ⟨-, hpass, -, hother, hfile, hrest⟩ :=
    replaceFile_of_locked (by decide) (by decide) hlocked hreplace
  rw [hcwd₁] at hlocked
  exact ⟨text, place, h₁.files, hencode, honly, hpass, hlocked, hadds, hother, hfile, hrest⟩

/-- **Saving stores the text of the findings.** -/
theorem stored_of_save (hroot : root.Proper) (hcwd : Grounded h.files h.cwd)
    (hsave : save root fs h = .ok u h') : ∃ text, encode fs = .ok text ∧ Stored h' root text := by
  obtain ⟨text, place, t, hencode, hsaved⟩ := savedTo_of_save hroot hcwd hsave
  have hlocked := hsaved.locked
  rw [← show h'.cwd = h.cwd by rw [hsaved.onlyFiles]] at hlocked
  exact ⟨text, hencode, hsaved.passable, t, place, hlocked, hsaved.other, hsaved.file, hsaved.rest⟩

/-- Where the workspace's directory is still reached, it is still locked, and the stored text
is what a path to it leads to. -/
theorem Stored.locate {text : String} (hstored : Stored h root text)
    (hdirectory : h.files.isDirectory? h.cwd (Storage.directory root) = .ok true) :
    ∃ place, Locked h.files h.cwd root place ∧
      h.files.locate h.cwd .target (Storage.results root) =
      .ok (place ++ ["analysis-results.json"]) ∧
      h.files.node? (place ++ ["analysis-results.json"]) = some (.file (Utf8.encode text)) := by
  obtain ⟨t, place, hbefore, hother, hfile, hrest⟩ := hstored.replaced
  have hlocked := hbefore.of_agree (by decide) hrest hother hfile hdirectory
  obtain ⟨n, hn, hleads⟩ := hlocked.leads
  refine ⟨place, hlocked, ?_, hfile⟩
  refine (locate_child (by decide)).2 ⟨hstored.passable, n, place, hn, hleads, ?_⟩
  refine walk_unlinked ⟨by decide, by decide, by decide⟩ ?_
  rw [hfile]
  rintro target ⟨⟩

/-- What is found where findings are stored is found in the workspace's directory. -/
theorem Stored.isDirectory {text : String} {node : Node} (hstored : Stored h root text)
    (hstatus : h.files.status h.cwd (Storage.results root) = .ok node) :
    h.files.isDirectory? h.cwd (Storage.directory root) = .ok true := by
  obtain ⟨t, place, hbefore, hother, -, hrest⟩ := hstored.replaced
  have hcwd := hbefore.grounded.of_agree hrest hother
  obtain ⟨q, hlocate, -⟩ := status_eq_ok.1 hstatus
  obtain ⟨-, n, d, hn, hleads, -⟩ := (locate_child (by decide)).1 hlocate
  exact (isDirectory_iff hcwd).2 ⟨hbefore.passable, n, d, hn, hleads⟩

/-- **What is read where a text was stored is that text.** -/
theorem Stored.readFile {text : String} {bytes : List UInt8} (hstored : Stored h root text)
    (hread : h.files.readFile h.cwd (Storage.results root) = .ok bytes) :
    bytes = Utf8.encode text := by
  rw [readFile_eq_ok] at hread
  obtain ⟨place, -, hlocate, hfile⟩ := hstored.locate (hstored.isDirectory hread)
  have hstatus := status_eq_ok.2 ⟨_, hlocate, hfile⟩
  rw [hread] at hstatus
  cases hstatus
  rfl

/-- **Stored findings are loaded**, as far as their text can be read, if the workspace's
directory is reached. -/
theorem load_of_stored {text : String} (hroot : root.Proper) (hstored : Stored h root text)
    (htext : Utf8.decodeText (Utf8.encode text) = .ok text)
    (hdirectory : h.files.isDirectory? h.cwd (Storage.directory root) = .ok true) :
    load root h =
      match decode h.room text with
      | .ok fs => .ok (some fs) h
      | .error e => .error (if e.isOfInput then .corruptFindings e else e) h := by
  obtain ⟨place, hlocked, hlocate, hfile⟩ := hstored.locate hdirectory
  have hexists : h.files.exists? h.cwd (Storage.results root) = .ok true :=
    test_eq_true.2 ⟨_, status_eq_ok.2 ⟨_, hlocate, hfile⟩, rfl⟩
  have hread : readText (Storage.results root) h = .ok text h :=
    query_eq_ok.2 ⟨readText_of_file hlocate hfile htext, rfl⟩
  have htried : readLocked h.room root h = Action.ofExcept (decode h.room text) h := by
    rw [readLocked, bind_of_ok (lock_of_locked hroot hlocked), bind_of_ok hread]
  rw [load_eq, hexists, htried]
  cases decode h.room text <;> rfl

/-- What is loaded was found in the workspace's directory. -/
theorem isDirectory_of_load {text : String} (hstored : Stored h root text)
    (hload : load root h = .ok (some fs) h') :
    h.files.isDirectory? h.cwd (Storage.directory root) = .ok true := by
  obtain ⟨hexists, -⟩ := load_eq_some.1 hload
  obtain ⟨node, hstatus, -⟩ := test_eq_true.1 hexists
  exact hstored.isDirectory hstatus

end SourceDrift.Repository
