/-
Locking a workspace, and replacing a file in it.

Both are made of several operations, and each of these follows the path to the workspace's
directory again. `Locked` is what taking the lock leaves: a directory that the path leads
to, and a lock file in it that can be opened again. While it holds, taking the lock does
nothing, and replacing a file changes what is at that one place.
-/
import SourceDrift.Proofs.FileTree.Operations
import SourceDrift.Proofs.FileTree.Resolve
import SourceDrift.Proofs.Host.Actions

set_option autoImplicit false

namespace SourceDrift.Host

open FileTree SourceDrift.Action

variable {h h' : Host} {root : Path} {cwd place : Place} {t : FileTree} {u : Unit}

/-- Whether a workspace's directory is at a place, with a lock file in it. -/
structure Locked (t : FileTree) (cwd : Place) (root : Path) (place : Place) : Prop where
  grounded : Grounded t cwd
  passable : Passable (Storage.directory root)
  leads : ∃ n, n ≤ 40 ∧ Leads t n (startOf cwd (Storage.directory root))
    (Storage.directory root).parts place
  short : Passable ⟨"/", place ++ [".lock"]⟩
  file : ∃ bytes, t.node? (place ++ [".lock"]) = some (.file bytes)

theorem Locked.isDirectory (hlocked : Locked t cwd root place) :
    t.isDirectory? cwd (Storage.directory root) = .ok true :=
  (isDirectory_iff hlocked.grounded).2 ⟨hlocked.passable, by
    obtain ⟨n, hn, hleads⟩ := hlocked.leads
    exact ⟨n, place, hn, hleads⟩⟩

/-- A workspace stays locked when a file in its directory is replaced, unless the file took
the place of a link by which the directory was reached. -/
theorem Locked.of_agree {t' : FileTree} {name : String} {bytes : List UInt8}
    (hlocked : Locked t cwd root place) (hname : name ≠ ".lock")
    (hrest : ∀ q, q ≠ place ++ [name] → t'.node? q = t.node? q)
    (hother : t.node? (place ++ [name]) ≠ some .directory)
    (hfile : t'.node? (place ++ [name]) = some (.file bytes))
    (hdirectory : t'.isDirectory? cwd (Storage.directory root) = .ok true) :
    Locked t' cwd root place := by
  have hgrounded := hlocked.grounded.of_agree hrest hother
  have hways : WaysIn t' t := by
    refine .of_agree (fun q hq => (hrest q hq).symm) ?_ ?_
    · rw [hfile]
      rintro ⟨⟩
    · rw [hfile]
      rintro target ⟨⟩
  obtain ⟨hpass, n, d, hn, hleads⟩ := (isDirectory_iff hgrounded).1 hdirectory
  obtain ⟨n', -, hleads'⟩ := hlocked.leads
  obtain ⟨-, rfl⟩ := (hleads.mono hways).unique hleads'
  obtain ⟨locked, hlock⟩ := hlocked.file
  refine ⟨hgrounded, hpass, ⟨n, hn, hleads⟩, hlocked.short, locked, ?_⟩
  rw [hrest, hlock]
  intro heq
  obtain ⟨-, hlast⟩ := List.append_inj' heq rfl
  exact hname (List.singleton_inj.1 hlast).symm

theorem makeDirectories_eq_ok {p : Path} :
    makeDirectories p h = .ok u h' ↔ ∃ files,
      FileTree.makeDirectories p.parts.length h.files h.cwd p = (.ok (), files) ∧
        h' = { h with files := files } := by
  unfold makeDirectories
  obtain ⟨e | ⟨⟩, files⟩ := FileTree.makeDirectories p.parts.length h.files h.cwd p
  · constructor
    · intro heq
      cases heq
    · rintro ⟨files', heq, -⟩
      cases heq
  · constructor
    · intro heq
      cases heq
      exact ⟨files, rfl, rfl⟩
    · rintro ⟨files', heq, rfl⟩
      cases heq
      rfl

theorem makeDirectories_of_locked (hlocked : Locked h.files h.cwd root place) :
    makeDirectories (Storage.directory root) h = .ok () h :=
  makeDirectories_eq_ok.2 ⟨h.files, makeDirectories_of_isDirectory _ hlocked.grounded
    hlocked.isDirectory, rfl⟩

/-! ## The lock -/

theorem resolve_of_leads_directory {n : Nat} (hroot : root.Proper) (hcwd : Grounded t cwd)
    (hpass : Passable (Storage.directory root)) (hn : n ≤ 40)
    (hleads : Leads t n (startOf cwd (Storage.directory root))
      (Storage.directory root).parts place) :
    t.resolve cwd (Storage.directory root) = .ok ⟨"/", place⟩ :=
  resolve_of_leads hcwd (hroot.child ⟨by decide, rfl⟩) hpass.noNul hn hleads

/-- The lock file of a workspace stands in the directory that the workspace's path leads to. -/
theorem locate_lock {q : Place} (hplace : Grounded t place) :
    t.locate cwd .entry (Path.child ⟨"/", place⟩ ".lock") = .ok q ↔
      Passable ⟨"/", place ++ [".lock"]⟩ ∧ q = place ++ [".lock"] := by
  rw [locate_entry_child (by decide) (by decide)]
  refine and_congr_right fun _ => ?_
  constructor
  · rintro ⟨-, n, d, -, hleads, rfl⟩
    obtain ⟨-, rfl⟩ := hleads.unique hplace.leads
    rfl
  · rintro rfl
    exact ⟨⟨by decide, by decide, by decide⟩, 0, place, Nat.zero_le 40, hplace.leads, rfl⟩

/-- **Taking the lock leaves the workspace locked**, and adds nothing but directories and the lock
file. -/
theorem adds_of_lock (hroot : root.Proper) (hcwd : Grounded h.files h.cwd)
    (hlock : lock (Storage.lock root) h = .ok u h') :
    h'.cwd = h.cwd ∧ ∃ place, Locked h'.files h.cwd root place ∧
      Adds (· = place ++ [".lock"]) h.files h'.files := by
  unfold lock at hlock
  rw [Storage.lock, Path.parent_child, Path.name_child] at hlock
  obtain ⟨_, _, hrun, hlock⟩ := bind_eq_ok.1 hlock
  obtain ⟨t₁, hmake, rfl⟩ := makeDirectories_eq_ok.1 hrun
  obtain ⟨directory, _, hrun, hlock⟩ := bind_eq_ok.1 hlock
  obtain ⟨hresolve, rfl⟩ := query_eq_ok.1 hrun
  obtain ⟨t₂, hensure, rfl⟩ := change_eq_ok.1 hlock
  -- Three things have happened: directories are there, the path is resolved, and the file is put
  -- in.
  have hmade : ∀ Q, Adds Q h.files t₁ := by
    intro Q
    have hadds := Adds.makeDirectories Q (Storage.directory root).parts.length h.files h.cwd
      (Storage.directory root)
    rw [hmake] at hadds
    exact hadds
  have hcwd₁ : Grounded t₁ h.cwd := hcwd.of_makeDirectories hmake
  obtain ⟨hpass, n, place, hn, hleads⟩ := leads_of_makeDirectories hcwd hmake
  dsimp only at hresolve hensure
  -- The resolved path is the directory that has just been reached, so that the file stands in it.
  rw [resolve_of_leads_directory hroot hcwd₁ hpass hn hleads] at hresolve
  obtain rfl := Except.ok.inj hresolve
  obtain ⟨q, bytes, hlocate, hfile, hextends⟩ := ensureUnlinked_ok hensure
  obtain ⟨hshort, rfl⟩ := (locate_lock (hleads.grounded (hcwd₁.startOf _))).1 hlocate
  obtain ⟨q', hlocate', hadds⟩ := ensureUnlinked_adds hensure
  obtain rfl := Except.ok.inj (hlocate.symm.trans hlocate')
  exact ⟨rfl, place, ⟨hcwd₁.mono hextends.waysIn.directory, hpass,
    ⟨n, hn, hleads.mono hextends.waysIn⟩, hshort, bytes, hfile⟩, (hmade _).trans hadds⟩

theorem locked_of_lock (hroot : root.Proper) (hcwd : Grounded h.files h.cwd)
    (hlock : lock (Storage.lock root) h = .ok u h') :
    h'.cwd = h.cwd ∧ ∃ place, Locked h'.files h.cwd root place := by
  obtain ⟨hcwd', place, hlocked, -⟩ := adds_of_lock hroot hcwd hlock
  exact ⟨hcwd', place, hlocked⟩

/-- **Taking the lock of a locked workspace does nothing.** -/
theorem lock_of_locked (hroot : root.Proper) (hlocked : Locked h.files h.cwd root place) :
    lock (Storage.lock root) h = .ok () h := by
  obtain ⟨n, hn, hleads⟩ := hlocked.leads
  obtain ⟨bytes, hfile⟩ := hlocked.file
  have hplace := hleads.grounded (hlocked.grounded.startOf _)
  have hresolve : query (fun t cwd => t.resolve cwd (Storage.directory root)) h =
      .ok ⟨"/", place⟩ h :=
    query_eq_ok.2
      ⟨resolve_of_leads_directory hroot hlocked.grounded hlocked.passable hn hleads, rfl⟩
  unfold lock
  rw [Storage.lock, Path.parent_child, Path.name_child,
    bind_of_ok (makeDirectories_of_locked hlocked), bind_of_ok hresolve]
  exact change_eq_ok.2 ⟨h.files,
    ensureUnlinked_of_file ((locate_lock hplace).2 ⟨hlocked.short, rfl⟩) hfile, rfl⟩

/-! ## Replacing -/

theorem createTemporary_eq_ok {directory p : Path} {tries : Nat} :
    ∀ {stars : Nat}, createTemporary directory stars tries h = .ok p h' →
      ∃ stars' files, p = directory.child (temporaryName stars') ∧
        h.files.createFile h.cwd p = .ok files ∧ h' = { h with files := files } := by
  induction tries with
  | zero =>
    intro stars hrun
    cases hrun
  | succ tries ih =>
    intro stars hrun
    simp only [createTemporary] at hrun
    split at hrun
    · next files hcreate =>
      cases hrun
      exact ⟨stars, files, rfl, hcreate, rfl⟩
    · exact ih hrun
    · cases hrun
    · cases hrun

theorem toList_temporaryName (stars : Nat) :
    ∃ cs, (temporaryName stars).toList = '.' :: 'a' :: cs := by
  have hstart : ".analysis-results_".toList = '.' :: 'a' :: "nalysis-results_".toList := rfl
  unfold temporaryName
  rw [String.toList_append, String.toList_append, hstart]
  refine ⟨"nalysis-results_".toList ++ (String.ofList (List.replicate stars '*')).toList ++
    ".tmp".toList, ?_⟩
  simp only [List.cons_append]

theorem isIdle_temporaryName (stars : Nat) : isIdle (temporaryName stars) = false := by
  obtain ⟨cs, hchars⟩ := toList_temporaryName stars
  rw [isIdle, Bool.or_eq_false_iff, decide_eq_false_iff_not, decide_eq_false_iff_not]
  constructor <;> intro heq <;> rw [heq] at hchars <;> cases hchars

theorem temporaryName_ne_up (stars : Nat) : temporaryName stars ≠ ".." := by
  intro heq
  obtain ⟨cs, hchars⟩ := toList_temporaryName stars
  rw [heq] at hchars
  cases hchars

/-- What is tried with the temporary file: the text goes into it, and it goes to its place. -/
def fillAndMove (temporary : Path) (text shown : String) (p : Path) : Action Unit := do
  writeText temporary text
  Action.change fun t cwd => t.moveFile cwd temporary shown p

theorem replaceFile_eq (p : Path) (text : String) :
    replaceFile p text = (do
      makeDirectories p.parent
      let h ← get
      let directory := p.parent.normalize h.cwd
      let temporary ← createTemporary directory 1 (h.files.entries.length + 1)
      let outcome ← catching Failure.isException
        (fillAndMove temporary text (temporaryShown directory) p)
      match outcome with
      | .ok () => pure ()
      | .error e => do
        unlinkIfPresent temporary
        throw e) := rfl

theorem fillAndMove_eq_ok {temporary p : Path} {text shown : String} :
    fillAndMove temporary text shown p h = .ok u h' ↔ ∃ t₁ t₂,
      h.files.writeFile h.cwd temporary (Utf8.encode text) = .ok t₁ ∧
        t₁.moveFile h.cwd temporary shown p = .ok t₂ ∧ h' = { h with files := t₂ } := by
  unfold fillAndMove
  rw [bind_eq_ok]
  constructor
  · rintro ⟨_, _, hrun, hmoved⟩
    obtain ⟨t₁, hwrite, rfl⟩ := change_eq_ok.1 hrun
    obtain ⟨t₂, hmove, rfl⟩ := change_eq_ok.1 hmoved
    exact ⟨t₁, t₂, hwrite, hmove, rfl⟩
  · rintro ⟨t₁, t₂, hwrite, hmove, rfl⟩
    exact ⟨(), _, change_eq_ok.2 ⟨t₁, hwrite, rfl⟩, change_eq_ok.2 ⟨t₂, hmove, rfl⟩⟩

/-- Where that fails, the text has been written or not, and nothing has been moved. -/
theorem fillAndMove_eq_error {temporary p : Path} {text shown : String} {e : Failure}
    (herror : fillAndMove temporary text shown p h = .error e h') :
    h' = h ∨ ∃ t₁, h.files.writeFile h.cwd temporary (Utf8.encode text) = .ok t₁ ∧
      h' = { h with files := t₁ } := by
  rcases bind_eq_error.1 herror with hunwritten | ⟨_, h₁, hwritten, hunmoved⟩
  · exact .inl (change_eq_error hunwritten)
  · obtain ⟨t₁, hwrite, rfl⟩ := change_eq_ok.1 hwritten
    exact .inr ⟨t₁, hwrite, change_eq_error hunmoved⟩

/-- **Replacing a file of a locked workspace changes what is at its place and nothing else.** -/
theorem replaceFile_of_locked {name text : String} (hidle : isIdle name = false) (hup : name ≠ "..")
    (hlocked : Locked h.files h.cwd root place)
    (hreplace : replaceFile ((Storage.directory root).child name) text h = .ok u h') :
    h'.cwd = h.cwd ∧ Passable ((Storage.directory root).child name) ∧ IsName name ∧
      h.files.node? (place ++ [name]) ≠ some .directory ∧
      h'.files.node? (place ++ [name]) = some (.file (Utf8.encode text)) ∧
      ∀ q, q ≠ place ++ [name] → h'.files.node? q = h.files.node? q := by
  obtain ⟨n, hn, hleads⟩ := hlocked.leads
  rw [replaceFile_eq, Path.parent_child, bind_of_ok (makeDirectories_of_locked hlocked)] at hreplace
  obtain ⟨_, _, hget, hreplace⟩ := bind_eq_ok.1 hreplace
  cases hget
  obtain ⟨temporary, _, hrun, hreplace⟩ := bind_eq_ok.1 hreplace
  obtain ⟨stars, t₁, rfl, hcreate, rfl⟩ := createTemporary_eq_ok hrun
  obtain ⟨outcome, h₃, htried, hreplace⟩ := bind_eq_ok.1 hreplace
  rcases catching_eq_ok.1 htried with ⟨_, hmoved, rfl⟩ | ⟨e, -, -, rfl⟩
  · cases hreplace
    obtain ⟨t₂, t₃, hwrite, hmove, rfl⟩ := fillAndMove_eq_ok.1 hmoved
    obtain ⟨q, hlocate, hways, hother, hfile, hrest⟩ := replaced_by_moving
      (isIdle_temporaryName stars) (temporaryName_ne_up stars) hcreate hwrite hmove
    -- The directory is reached still, since no step has touched a way.
    obtain ⟨hpass, hname, n', d, -, hleads', rfl⟩ := (locate_entry_child hidle hup).1 hlocate
    obtain ⟨-, rfl⟩ := (hleads.mono hways).unique hleads'
    exact ⟨rfl, hpass, hname, hother, hfile, hrest⟩
  · obtain ⟨_, _, -, hthrow⟩ := bind_eq_ok.1 hreplace
    cases hthrow

end SourceDrift.Host
