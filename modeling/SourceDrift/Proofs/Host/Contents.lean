/-
What storing findings does to the files of the world.

Storing takes the lock and replaces a file, and either may fail half-way. Even then nothing
of the world has changed but its files, and whatever file is new or different holds the
stored text, or nothing, as a new file does at first. Loading takes the lock too, which adds
to the files without changing what is read.
-/
import SourceDrift.Proofs.FileTree.Removal
import SourceDrift.Proofs.Host.Replace

set_option autoImplicit false

namespace SourceDrift

open FileTree

namespace Action

variable {α : Type}

/-- Whether an action changes nothing of the world but its files. -/
def FilesOnly (x : Action α) : Prop :=
  ∀ h, x.after h = { h with files := (x.after h).files }

theorem FilesOnly.cwd {x : Action α} (hx : x.FilesOnly) (h : Host) : (x.after h).cwd = h.cwd := by
  rw [hx h]

/-- The bound of what changes files only, and writes some contents only. -/
def writing (P : List UInt8 → Prop) : Bound where
  Allows h h' := h' = { h with files := h'.files } ∧ WritesOnly P h.files h'.files
  refl h := ⟨rfl, .refl h.files⟩
  trans := by
    rintro h h' h'' ⟨hfiles, hwrites⟩ ⟨hfiles', hwrites'⟩
    refine ⟨?_, hwrites.trans hwrites'⟩
    rw [hfiles', hfiles]

theorem writing_mono {P Q : List UInt8 → Prop} {h h' : Host} (hPQ : ∀ bytes, P bytes → Q bytes)
    (hallows : (writing P).Allows h h') : (writing Q).Allows h h' :=
  ⟨hallows.1, hallows.2.mono hPQ⟩

theorem Within.filesOnly {P : List UInt8 → Prop} {x : Action α} (hx : x.Within (writing P)) :
    x.FilesOnly :=
  fun h => (hx h).1

end Action

namespace Host

open SourceDrift.Action

variable {P : List UInt8 → Prop}

theorem after_makeDirectories (p : Path) (h : Host) : (makeDirectories p).after h =
    { h with files := (FileTree.makeDirectories p.parts.length h.files h.cwd p).2 } := by
  unfold after makeDirectories
  obtain ⟨_ | _, files⟩ := FileTree.makeDirectories p.parts.length h.files h.cwd p <;> rfl

theorem within_makeDirectories (p : Path) : Within (writing P) (makeDirectories p) := by
  intro h
  rw [after_makeDirectories]
  exact ⟨rfl, writesOnly_makeDirectories _ _ _ _⟩

theorem within_lock (hP : P []) (p : Path) : Within (writing P) (lock p) := by
  refine (within_makeDirectories _).bind fun _ => (within_query _).bind fun _ => ?_
  exact within_change fun h files hrun => ⟨rfl, writesOnly_ensureUnlinked hP hrun⟩

theorem cwd_of_lock {p : Path} {h h' : Host} {u : Unit} (hlock : lock p h = .ok u h') :
    h'.cwd = h.cwd := by
  have hfiles := (within_lock (P := fun _ => True) trivial p).filesOnly
  rw [← hfiles.cwd h, after_of_ok hlock]

/-- The bound of what stays in its directory and keeps all that is there. -/
def extending : Bound where
  Allows h h' := h'.cwd = h.cwd ∧ Extends h.files h'.files
  refl h := ⟨rfl, .refl h.files⟩
  trans := by
    rintro h h' h'' ⟨hcwd, hextends⟩ ⟨hcwd', hextends'⟩
    exact ⟨hcwd'.trans hcwd, hextends.trans hextends'⟩

theorem extending_makeDirectories (p : Path) : Within extending (makeDirectories p) := by
  intro h
  rw [after_makeDirectories]
  exact ⟨rfl, makeDirectories_extends _ _ _ _⟩

/-- Taking a lock keeps all that is there, whether or not it succeeds. -/
theorem extending_lock (p : Path) : Within extending (lock p) := by
  refine (extending_makeDirectories _).bind fun _ => (within_query _).bind fun _ => ?_
  refine within_change fun h files hrun => ⟨rfl, ?_⟩
  obtain ⟨-, -, -, -, hextends⟩ := ensureUnlinked_ok hrun
  exact hextends

theorem extends_of_lock {p : Path} {h h' : Host} {u : Unit} (hlock : lock p h = .ok u h') :
    Extends h.files h'.files := by
  rw [← after_of_ok hlock]
  exact (extending_lock p h).2

/-- The bound of what adds directories, and empty files in some places, and changes nothing else. -/
def adding (Q : Place → Prop) : Bound where
  Allows h h' := h' = { h with files := h'.files } ∧ Adds Q h.files h'.files
  refl h := ⟨rfl, .refl Q h.files⟩
  trans := by
    rintro h h' h'' ⟨hfiles, hadds⟩ ⟨hfiles', hadds'⟩
    refine ⟨?_, hadds.trans hadds'⟩
    rw [hfiles', hfiles]

theorem adding_makeDirectories (Q : Place → Prop) (p : Path) :
    Within (adding Q) (makeDirectories p) := by
  intro h
  rw [after_makeDirectories]
  exact ⟨rfl, .makeDirectories _ _ _ _ _⟩

/-- Taking a lock adds what has the lock's name. -/
theorem adding_lock {Q : Place → Prop} (hQ : ∀ q, q.getLast? = some ".lock" → Q q) (root : Path) :
    Within (adding Q) (lock (Storage.lock root)) := by
  refine (adding_makeDirectories Q _).bind fun _ => (within_query _).bind fun directory => ?_
  refine within_change fun h files hrun => ⟨rfl, ?_⟩
  rw [Storage.lock, Path.name_child] at hrun
  obtain ⟨place, hlocate, hadds⟩ := ensureUnlinked_adds hrun
  obtain ⟨-, -, -, d, -, -, rfl⟩ := (locate_entry_child (by decide) (by decide)).1 hlocate
  exact hadds.mono fun q hq => hQ q (by rw [hq, List.getLast?_concat])

theorem within_unlinkIfPresent (p : Path) : Within (writing P) (unlinkIfPresent p) :=
  within_change fun _ _ hrun => ⟨rfl, writesOnly_unlinkIfPresent hrun⟩

/-- A temporary file that could not be made has left the world as it was. -/
theorem createTemporary_eq_error {directory : Path} {tries : Nat} {h h' : Host} {e : Failure} :
    ∀ {stars : Nat}, createTemporary directory stars tries h = .error e h' → h' = h := by
  induction tries with
  | zero =>
    intro stars hrun
    cases hrun
    rfl
  | succ tries ih =>
    intro stars hrun
    simp only [createTemporary] at hrun
    split at hrun
    · cases hrun
    · exact ih hrun
    · cases hrun
      rfl
    · cases hrun
      rfl

/-- **Replacing a file writes its text**, or a part of what that takes if it fails. -/
theorem within_replaceFile {text : String} (hempty : P []) (hP : P (Utf8.encode text)) (p : Path) :
    Within (writing P) (replaceFile p text) := by
  rw [replaceFile_eq]
  refine (within_makeDirectories _).bind fun _ => ?_
  intro h
  -- From here on a single world is looked at: what is moved in the end is made on the way.
  rw [after_bind_of_ok (show (get : Action Host) h = .ok h h from rfl)]
  generalize p.parent.normalize h.cwd = directory
  generalize h.files.entries.length + 1 = tries
  cases hcreate : createTemporary directory 1 tries h with
  | error e h₁ =>
    rw [after_bind_of_error hcreate, createTemporary_eq_error hcreate]
    exact (writing P).refl h
  | ok temporary h₁ =>
    rw [after_bind_of_ok hcreate]
    obtain ⟨stars, t₁, rfl, hmade, rfl⟩ := createTemporary_eq_ok hcreate
    have hwrites₁ : WritesOnly P h.files t₁ := writesOnly_createFile hempty hmade
    cases hrun : fillAndMove (directory.child (temporaryName stars)) text
      (temporaryShown directory) p
        { h with files := t₁ } with
    | ok u h₃ =>
      rw [after_bind_of_ok (catching_of_ok hrun)]
      obtain ⟨t₂, t₃, hwrite, hmove, rfl⟩ := fillAndMove_eq_ok.1 hrun
      exact ⟨rfl, writesOnly_replaced hP (isIdle_temporaryName stars) (temporaryName_ne_up stars)
        hmade hwrite hmove⟩
    | error e h₃ =>
      -- A failure leaves at most the temporary file, which goes then unless it is an end from
      -- outside.
      have hfailed : (writing P).Allows h h₃ := by
        rcases fillAndMove_eq_error hrun with rfl | ⟨t₂, hwrite, rfl⟩
        · exact ⟨rfl, hwrites₁⟩
        · exact ⟨rfl, hwrites₁.trans (writesOnly_writeFile hP hwrite)⟩
      cases he : e.isException with
      | false =>
        rw [after_bind_of_error (catching_of_uncaught hrun he)]
        exact hfailed
      | true =>
        rw [after_bind_of_ok (catching_of_error hrun he)]
        have hremoved := ((within_unlinkIfPresent (P := P)
          (directory.child (temporaryName stars))).bind fun _ => within_throw (α := Unit) e) h₃
        exact (writing P).trans hfailed hremoved

end Host

namespace Repository

open SourceDrift.Action

/-- What is written where findings are stored: their text, or nothing. -/
def Written (fs : List Finding) (bytes : List UInt8) : Prop :=
  bytes = [] ∨ ∃ text, encode fs = .ok text ∧ bytes = Utf8.encode text

/-- **Storing findings writes their text**, whether or not it succeeds. -/
theorem within_save (root : Path) (fs : List Finding) :
    Within (writing (Written fs)) (save root fs) := by
  intro h
  unfold save
  cases hencode : encode fs with
  | error e => exact (writing (Written fs)).refl h
  | ok text =>
    refine ((Host.within_lock (.inl rfl) _).bind fun _ => ?_) h
    exact Host.within_replaceFile (.inl rfl) (.inr ⟨text, hencode, rfl⟩) _

/-- Deleting the stored findings writes nothing but a lock file. -/
theorem within_delete (root : Path) : Within (writing (· = [])) (delete root) := by
  refine (within_query _).bind fun found => ?_
  cases found with
  | false => exact within_pure ()
  | true =>
    exact (Host.within_lock (P := (· = [])) rfl _).bind fun _ => Host.within_unlinkIfPresent _

/-- **Storing findings changes files only.** -/
theorem filesOnly_save (root : Path) (fs : List Finding) : FilesOnly (save root fs) :=
  (within_save root fs).filesOnly

/-- Storing findings is done in three steps. -/
theorem save_eq_ok {root : Path} {fs : List Finding} {h h' : Host} {u : Unit} :
    save root fs h = .ok u h' ↔ ∃ text h₁, encode fs = .ok text ∧
      Host.lock (Storage.lock root) h = .ok () h₁ ∧
      Host.replaceFile (Storage.results root) text h₁ = .ok u h' := by
  unfold save
  rw [bind_eq_ok]
  constructor
  · rintro ⟨text, _, hrun, hrest⟩
    obtain ⟨hencode, rfl⟩ := ofExcept_eq_ok.1 hrun
    obtain ⟨_, h₁, hlock, hreplace⟩ := bind_eq_ok.1 hrest
    exact ⟨text, h₁, hencode, hlock, hreplace⟩
  · rintro ⟨text, h₁, hencode, hlock, hreplace⟩
    exact ⟨text, h, ofExcept_eq_ok.2 ⟨hencode, rfl⟩, bind_eq_ok.2 ⟨(), h₁, hlock, hreplace⟩⟩

/-- What is tried where something is stored: it is read under the lock, and decoded. -/
def readLocked (room : Nat) (root : Path) : Action (List Finding) := do
  Host.lock (Storage.lock root)
  let text ← Host.readText (Storage.results root)
  Action.ofExcept (decode room text)

theorem readLocked_eq_ok {room : Nat} {root : Path} {fs : List Finding} {h h' : Host} :
    readLocked room root h = .ok fs h' ↔ Host.lock (Storage.lock root) h = .ok () h' ∧
      ∃ text, h'.files.readText h'.cwd (Storage.results root) = .ok text ∧
        decode room text = .ok fs := by
  constructor
  · intro hrun
    obtain ⟨_, h₁, hlock, hlocked⟩ := bind_eq_ok.1 hrun
    obtain ⟨text, h₂, hread, hdecoded⟩ := bind_eq_ok.1 hlocked
    obtain ⟨hdecode, heq⟩ := ofExcept_eq_ok.1 hdecoded
    obtain ⟨htext, rfl⟩ := query_eq_ok.1 hread
    rw [heq]
    exact ⟨hlock, text, htext, hdecode⟩
  · rintro ⟨hlock, text, htext, hdecode⟩
    have hread : Host.readText (Storage.results root) h' = .ok text h' := query_eq_ok.2 ⟨htext, rfl⟩
    rw [readLocked, bind_of_ok hlock, bind_of_ok hread]
    exact ofExcept_eq_ok.2 ⟨hdecode, rfl⟩

/-- **Loading, step by step**: where nothing is found nothing is done, and if something is wrong
with what is found, the findings are corrupt. -/
theorem load_eq (root : Path) (h : Host) :
    load root h =
      match h.files.exists? h.cwd (Storage.results root) with
      | .error e => .error e h
      | .ok false => .ok none h
      | .ok true =>
        match readLocked h.room root h with
        | .ok fs h' => .ok (some fs) h'
        | .error e h' => .error (if e.isOfInput then .corruptFindings e else e) h' := by
  unfold load
  cases hexists : h.files.exists? h.cwd (Storage.results root) with
  | error e =>
    have hunknown : Host.exists? (Storage.results root) h = .error e h :=
      query_eq_error.2 ⟨hexists, rfl⟩
    rw [bind_of_error hunknown]
  | ok found =>
    have hfound : Host.exists? (Storage.results root) h = .ok found h :=
      query_eq_ok.2 ⟨hexists, rfl⟩
    rw [bind_of_ok hfound]
    cases found with
    | false => rfl
    | true =>
      -- What is tried is `readLocked`, with its steps written out.
      rw [if_pos rfl, bind_of_ok (show (get : Action Host) h = .ok h h from rfl)]
      cases hrun : readLocked h.room root h with
      | ok fs h' => exact bind_of_ok (catching_of_ok hrun)
      | error e h' =>
        dsimp only
        cases he : e.isOfInput with
        | true => exact bind_of_ok (catching_of_error hrun he)
        | false => exact bind_of_error (catching_of_uncaught hrun he)

/-- **What loading finds**: the findings of the text that is read once the lock is taken. -/
theorem load_eq_some {root : Path} {fs : List Finding} {h h' : Host} :
    load root h = .ok (some fs) h' ↔
      h.files.exists? h.cwd (Storage.results root) = .ok true ∧
        Host.lock (Storage.lock root) h = .ok () h' ∧
        ∃ text, h'.files.readText h'.cwd (Storage.results root) = .ok text ∧
          decode h.room text = .ok fs := by
  rw [load_eq, ← readLocked_eq_ok]
  split
  · next e hexists => simp [hexists]
  · next hexists => simp [hexists]
  · next hexists =>
    cases hrun : readLocked h.room root h with
    | ok gs h₁ => simp [hexists]
    | error e h₁ => simp

theorem after_load_of_exists {root : Path} {h : Host}
    (hexists : h.files.exists? h.cwd (Storage.results root) = .ok true) :
    (load root).after h = (readLocked h.room root).after h := by
  rw [after, after, load_eq, hexists]
  cases readLocked h.room root h <;> rfl

/-- Where nothing is found loading leaves the world as it is. -/
theorem after_load_of_not_exists {root : Path} {h : Host}
    (hexists : h.files.exists? h.cwd (Storage.results root) ≠ .ok true) :
    (load root).after h = h := by
  cases hfound : h.files.exists? h.cwd (Storage.results root) with
  | error e => rw [after, load_eq, hfound]
  | ok found =>
    cases found with
    | false => rw [after, load_eq, hfound]
    | true => exact absurd hfound hexists

/-- **Loading does no more to the world than taking the lock may do**, whether or not it
succeeds. -/
theorem within_load_of_lock {b : Bound} {root : Path}
    (hlock : Within b (Host.lock (Storage.lock root))) :
    Within b (load root) := by
  have htried : ∀ room, Within b (readLocked room root) := fun room =>
    hlock.bind fun _ => (within_query _).bind fun _ => within_ofExcept _
  intro h
  by_cases hexists : h.files.exists? h.cwd (Storage.results root) = .ok true
  · rw [after_load_of_exists hexists]
    exact htried h.room h
  · rw [after_load_of_not_exists hexists]
    exact b.refl h

/-- Loading writes nothing but a lock file, whether or not it succeeds. -/
theorem within_load (root : Path) : Within (writing (· = [])) (load root) :=
  within_load_of_lock (Host.within_lock (P := (· = [])) rfl _)

/-- Loading adds a lock file and its directories at most, whether or not it succeeds. -/
theorem adding_load {Q : Place → Prop} (hQ : ∀ q, q.getLast? = some ".lock" → Q q) (root : Path) :
    Within (Host.adding Q) (load root) :=
  within_load_of_lock (Host.adding_lock hQ root)

/-- Loading keeps all that is there, whether or not it succeeds. -/
theorem extending_load (root : Path) : Within Host.extending (load root) :=
  within_load_of_lock (Host.extending_lock _)

/-- **What is loaded was stored before the lock was taken.** -/
theorem readFile_of_load {root : Path} {fs : List Finding} {h h' : Host}
    (hload : load root h = .ok (some fs) h') :
    ∃ bytes text, h.files.readFile h.cwd (Storage.results root) = .ok bytes ∧
      Utf8.decodeText bytes = .ok text ∧ decode h.room text = .ok fs := by
  obtain ⟨hexists, hlock, text, hread, hdecode⟩ := load_eq_some.1 hload
  obtain ⟨bytes, hread, htext⟩ := readText_eq_ok.1 hread
  obtain ⟨node, hthere, -⟩ := test_eq_true.1 hexists
  rw [Host.cwd_of_lock hlock] at hread
  exact ⟨bytes, text, readFile_of_extends (Host.extends_of_lock hlock) hthere hread, htext, hdecode⟩

/-- **Where a text can be read and the lock be taken, loading finds what the text stores.** -/
theorem load_of_readFile {root : Path} {fs : List Finding} {h h' : Host} {bytes : List UInt8}
    {text : String} (hread : h.files.readFile h.cwd (Storage.results root) = .ok bytes)
    (htext : Utf8.decodeText bytes = .ok text) (hdecode : decode h.room text = .ok fs)
    (hlock : Host.lock (Storage.lock root) h = .ok () h') : load root h = .ok (some fs) h' := by
  have hstatus := readFile_eq_ok.1 hread
  have hcwd : h'.cwd = h.cwd := Host.cwd_of_lock hlock
  refine load_eq_some.2 ⟨test_eq_true.2 ⟨_, hstatus, rfl⟩, hlock, text, ?_, hdecode⟩
  rw [hcwd, readText_eq_ok]
  exact ⟨bytes, readFile_eq_ok.2 (status_mono (Host.extends_of_lock hlock) hstatus), htext⟩

end Repository
end SourceDrift
