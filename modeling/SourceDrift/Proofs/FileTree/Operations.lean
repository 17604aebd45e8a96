/-
What single operations do to a tree.

Making something where nothing was keeps all that is there, so every way through the tree
stays. A file is in nobody's way: writing one over another, or taking one out, leaves the
ways as they are, and a file put in the place of a link can only take ways away.
-/
import SourceDrift.FileTree.Operations
import SourceDrift.Proofs.FileTree.Walk

set_option autoImplicit false

namespace SourceDrift.FileTree

variable {t t' t'' : FileTree} {cwd q place : Place} {node : Node} {p : Path} {name : String}
  {bytes : List UInt8}

/-! ## Ways -/

namespace WaysIn

theorem refl (t : FileTree) : WaysIn t t := ⟨id, id⟩

theorem trans (h : WaysIn t t') (h' : WaysIn t' t'') : WaysIn t t'' :=
  ⟨fun hnode => h'.directory (h.directory hnode), fun hnode => h'.link (h.link hnode)⟩

/-- What agrees with a tree in all places but one has its ways, if none of them can end or
turn at that place. -/
theorem of_agree (hq : ∀ q, q ≠ place → t'.node? q = t.node? q)
    (hdirectory : t.node? place ≠ some .directory)
    (hlink : ∀ target, t.node? place ≠ some (.link target)) : WaysIn t t' where
  directory := by
    intro q hnode
    rw [hq q (fun heq => hdirectory (heq ▸ hnode)), hnode]
  link := by
    intro q target hnode
    rw [hq q (fun heq => hlink target (heq ▸ hnode)), hnode]

end WaysIn

/-- A directory stays one when something that is no directory is replaced. -/
theorem Grounded.of_agree {d : Place} (h : Grounded t d)
    (hq : ∀ q, q ≠ place → t'.node? q = t.node? q) (hdirectory : t.node? place ≠ some .directory) :
    Grounded t' d := by
  refine h.mono fun {q} hnode => ?_
  rw [hq q (fun heq => hdirectory (heq ▸ hnode)), hnode]

theorem node?_insert_self (hplace : place ≠ []) :
    (t.insert place node).node? place = some node := by
  rw [node?_insert _ _ _ _ hplace, if_pos rfl]

theorem node?_insert_of_ne (hq : q ≠ place) : (t.insert place node).node? q = t.node? q := by
  by_cases hroot : q = []
  · rw [hroot, node?_root, node?_root]
  · rw [node?_insert _ _ _ _ hroot, if_neg hq]

theorem node?_erase_of_ne (hq : q ≠ place) : (t.erase place).node? q = t.node? q := by
  by_cases hroot : q = []
  · rw [hroot, node?_root, node?_root]
  · rw [node?_erase _ _ _ hroot, if_neg hq]

theorem mem_of_lookup {entries : List (Place × Node)} (h : lookup place entries = some node) :
    (place, node) ∈ entries := by
  induction entries with
  | nil => cases h
  | cons e rest ih =>
    obtain ⟨p, found⟩ := e
    rw [lookup] at h
    by_cases hp : p = place
    · rw [if_pos hp] at h
      cases hp
      cases h
      exact List.mem_cons_self
    · rw [if_neg hp] at h
      exact List.mem_cons_of_mem _ (ih h)

/-- Whether a node leads elsewhere. -/
def isLink : Node → Bool
  | .link _ => true
  | .directory | .file _ => false

/-- There is no link in a tree that lists none. -/
theorem unlinked_of_entries (h : ∀ e ∈ t.entries, isLink e.2 = false) (q : Place)
    (target : String) :
    t.node? q ≠ some (.link target) := by
  intro hnode
  by_cases hroot : q = []
  · rw [hroot, node?_root] at hnode
    cases hnode
  · rw [node?, if_neg hroot] at hnode
    cases h _ (mem_of_lookup hnode)

/-- Whether all that is in a tree is in another. -/
def Extends (t t' : FileTree) : Prop :=
  ∀ q node, t.node? q = some node → t'.node? q = some node

theorem Extends.waysIn (h : Extends t t') : WaysIn t t' := ⟨h _ _, h _ _⟩

theorem Extends.refl (t : FileTree) : Extends t t := fun _ _ hnode => hnode

theorem Extends.trans (h : Extends t t') (h' : Extends t' t'') : Extends t t'' :=
  fun q node hnode => h' q node (h q node hnode)

theorem extends_insert (hfree : t.node? place = none) : Extends t (t.insert place node) := by
  intro q found hnode
  have hne : q ≠ place := by
    rintro rfl
    rw [hfree] at hnode
    cases hnode
  rw [node?_insert_of_ne hne, hnode]

theorem ne_nil_of_free (hfree : t.node? place = none) : place ≠ [] := by
  rintro rfl
  cases hfree

/-! ## Making directories -/

theorem makeDirectory_ok (h : t.makeDirectory cwd p = .ok t') :
    ∃ place, t.locate cwd .entry p = .ok place ∧ t.node? place = none ∧
      t' = t.insert place .directory := by
  unfold makeDirectory at h
  split at h
  · cases h
  · next place hlocate =>
    split at h
    · next hfree =>
      cases h
      exact ⟨place, hlocate, hfree, rfl⟩
    · cases h

theorem makeDirectory_of_taken (hlocate : t.locate cwd .entry p = .ok place)
    (hnode : t.node? place = some node) :
    t.makeDirectory cwd p = .error (.system .alreadyExists p.toString) := by
  rw [makeDirectory, hlocate]
  dsimp only
  rw [hnode]

theorem makeDirectory_extends (h : t.makeDirectory cwd p = .ok t') : Extends t t' := by
  obtain ⟨place, -, hfree, rfl⟩ := makeDirectory_ok h
  exact extends_insert hfree

/-- What holds from a tree to the tree with one directory more holds from a tree to the one
in which directories have been made, even if not all of them could be. -/
theorem makeDirectories_rel {R : FileTree → FileTree → Prop} (hrefl : ∀ t, R t t)
    (htrans : ∀ {t t' t'' : FileTree}, R t t' → R t' t'' → R t t'')
    (hmake : ∀ {t t' : FileTree} {p : Path}, t.makeDirectory cwd p = .ok t' → R t t')
    (depth : Nat) (t : FileTree) (p : Path) : R t (makeDirectories depth t cwd p).2 := by
  -- By the depth: the directories above are made first, and whatever they come to is kept.
  induction depth generalizing p with
  | zero =>
    unfold makeDirectories
    split
    · next h => exact hmake h
    · exact hrefl t
    · exact hrefl t
  | succ depth ih =>
    unfold makeDirectories
    split
    · next h => exact hmake h
    · have habove := ih p.parent
      dsimp only
      split
      · next hrun =>
        rw [hrun] at habove
        exact habove
      · next hrun =>
        rw [hrun] at habove
        split
        · next h => exact htrans habove (hmake h)
        · exact habove
    · exact hrefl t

/-- Making directories keeps all that is there, even if it fails. -/
theorem makeDirectories_extends (depth : Nat) (t : FileTree) (cwd : Place) (p : Path) :
    Extends t (makeDirectories depth t cwd p).2 :=
  makeDirectories_rel .refl .trans makeDirectory_extends depth t p

theorem extends_of_makeDirectories {depth : Nat} {r : Except Failure Unit}
    (h : makeDirectories depth t cwd p = (r, t')) : Extends t t' := by
  have hextends := makeDirectories_extends depth t cwd p
  rw [h] at hextends
  exact hextends

theorem Grounded.of_makeDirectories {depth : Nat} {r : Except Failure Unit} (hcwd : Grounded t cwd)
    (h : makeDirectories depth t cwd p = (r, t')) : Grounded t' cwd :=
  hcwd.mono (extends_of_makeDirectories h).waysIn.directory

theorem isDirectory_of_makeDirectory (hcwd : Grounded t cwd) (h : t.makeDirectory cwd p = .ok t') :
    t'.isDirectory? cwd p = .ok true := by
  have hways := (makeDirectory_extends h).waysIn
  obtain ⟨place, hlocate, hfree, rfl⟩ := makeDirectory_ok h
  obtain ⟨above, name, rfl, hidle, hup⟩ :=
    exists_child_of_locate hcwd hlocate (by rw [hfree]; rintro ⟨⟩)
  obtain ⟨hpass, hname, n, d, hn, hleads, rfl⟩ := (locate_entry_child hidle hup).1 hlocate
  have hmade : (t.insert (d ++ [name]) .directory).node? (d ++ [name]) = some .directory :=
    node?_insert_self (ne_nil_of_free hfree)
  exact (isDirectory_iff (hcwd.mono hways.directory)).2
    ⟨hpass, n + 0, d ++ [name], hn, (hleads.mono hways).append (.down hname hmade .nil)⟩

/-! ### One directory and those above it -/

/-- A failure to make a directory is settled exactly if it is the system's and the directory is
there. -/
theorem settle_eq_ok {e : Failure} : makeDirectories.settle cwd p t e = .ok () ↔
    (∃ cause path, e = .system cause path) ∧ t.isDirectory? cwd p = .ok true := by
  unfold makeDirectories.settle
  cases e with
  | system cause path =>
    dsimp only
    cases t.isDirectory? cwd p with
    | error fault => simp
    | ok there => cases there <;> simp
  | _ => simp

/-- Makes one directory, which may be there already. -/
def settleDirectory (t : FileTree) (cwd : Place) (p : Path) : Except Failure Unit × FileTree :=
  match t.makeDirectory cwd p with
  | .ok t => (.ok (), t)
  | .error e => (makeDirectories.settle cwd p t e, t)

theorem settleDirectory_eq_ok : t.settleDirectory cwd p = (.ok (), t') ↔
    t.makeDirectory cwd p = .ok t' ∨ t.isDirectory? cwd p = .ok true ∧ t' = t ∧
      ∃ cause path, t.makeDirectory cwd p = .error (.system cause path) := by
  unfold settleDirectory
  cases t.makeDirectory cwd p with
  | ok t₁ => simp
  | error e =>
    rw [Prod.mk.injEq, settle_eq_ok]
    simp only [reduceCtorEq, Except.error.injEq, false_or]
    constructor
    · rintro ⟨⟨hsystem, hthere⟩, rfl⟩
      exact ⟨hthere, rfl, hsystem⟩
    · rintro ⟨hthere, rfl, hsystem⟩
      exact ⟨⟨hsystem, hthere⟩, rfl⟩

/-- Nothing above a directory is touched unless something there is missing. -/
theorem makeDirectories_of_ne {depth : Nat}
    (hother : ∀ path, t.makeDirectory cwd p ≠ .error (.system .notFound path)) :
    makeDirectories depth t cwd p = t.settleDirectory cwd p := by
  unfold makeDirectories settleDirectory
  split
  · next hmake => rw [hmake]
  · next hmissing => exact absurd hmissing (hother _)
  · next hfails => rw [hfails]

theorem makeDirectories_succ {depth : Nat} {path : String}
    (hmissing : t.makeDirectory cwd p = .error (.system .notFound path)) :
    makeDirectories (depth + 1) t cwd p =
      match makeDirectories depth t cwd p.parent with
      | (.error e, t) => (.error e, t)
      | (.ok (), t) => t.settleDirectory cwd p := by
  rw [makeDirectories, hmissing]
  rfl

/-- **Making directories** makes the one that is asked for, unless it is there. If something above
it is missing, that is made first, and then this one is tried once more. -/
theorem makeDirectories_eq_ok {depth : Nat} : makeDirectories depth t cwd p = (.ok (), t') ↔
    (t.settleDirectory cwd p = (.ok (), t') ∧
        ∀ path, t.makeDirectory cwd p ≠ .error (.system .notFound path)) ∨
      ∃ path less t₁, t.makeDirectory cwd p = .error (.system .notFound path) ∧ depth = less + 1 ∧
        makeDirectories less t cwd p.parent = (.ok (), t₁) ∧
        t₁.settleDirectory cwd p = (.ok (), t') := by
  by_cases hmissing : ∃ path, t.makeDirectory cwd p = .error (.system .notFound path)
  · obtain ⟨path, hmissing⟩ := hmissing
    cases depth with
    | zero =>
      unfold makeDirectories
      simp [hmissing]
    | succ depth =>
      rw [makeDirectories_succ hmissing]
      cases habove : makeDirectories depth t cwd p.parent with
      | mk r t₁ => cases r <;> simp [hmissing, habove]
  · have hother : ∀ path, t.makeDirectory cwd p ≠ .error (.system .notFound path) :=
      fun path hpath => hmissing ⟨path, hpath⟩
    rw [makeDirectories_of_ne hother]
    simp [hother]

theorem isDirectory_of_settleDirectory (hcwd : Grounded t cwd)
    (h : t.settleDirectory cwd p = (.ok (), t')) : t'.isDirectory? cwd p = .ok true := by
  rcases settleDirectory_eq_ok.1 h with hmake | ⟨hthere, rfl, -⟩
  · exact isDirectory_of_makeDirectory hcwd hmake
  · exact hthere

/-- **Where directories have been made there is a directory.** -/
theorem isDirectory_of_makeDirectories {depth : Nat} (hcwd : Grounded t cwd)
    (h : makeDirectories depth t cwd p = (.ok (), t')) : t'.isDirectory? cwd p = .ok true := by
  rcases makeDirectories_eq_ok.1 h with ⟨hsettle, -⟩ | ⟨_, _, t₁, -, -, habove, hsettle⟩
  · exact isDirectory_of_settleDirectory hcwd hsettle
  · exact isDirectory_of_settleDirectory (hcwd.of_makeDirectories habove) hsettle

/-- The path of such a directory leads to it. -/
theorem leads_of_makeDirectories {depth : Nat} (hcwd : Grounded t cwd)
    (h : makeDirectories depth t cwd p = (.ok (), t')) :
    Passable p ∧ ∃ n d, n ≤ 40 ∧ Leads t' n (startOf cwd p) p.parts d :=
  (isDirectory_iff (hcwd.of_makeDirectories h)).1 (isDirectory_of_makeDirectories hcwd h)

/-- Making a directory that is there changes nothing. -/
theorem makeDirectories_of_isDirectory (depth : Nat) (hcwd : Grounded t cwd)
    (hdirectory : t.isDirectory? cwd p = .ok true) :
    makeDirectories depth t cwd p = (.ok (), t) := by
  obtain ⟨hpass, n, d, hn, hleads⟩ := (isDirectory_iff hcwd).1 hdirectory
  obtain ⟨q, hwalk, hentry⟩ := hleads.exists_entry hn
  have htaken : ∃ node, t.node? q = some node := by
    rcases hentry with rfl | ⟨target, hlink⟩
    · exact ⟨_, (hleads.grounded (hcwd.startOf p)).node⟩
    · exact ⟨_, hlink⟩
  obtain ⟨node, hnode⟩ := htaken
  unfold makeDirectories
  rw [makeDirectory_of_taken (locate_eq_ok.2 ⟨hpass, hwalk⟩) hnode]
  dsimp only
  rw [makeDirectories.settle, hdirectory]

/-! ## Files -/

theorem createFile_ok (h : t.createFile cwd p = .ok t') :
    ∃ place, t.locate cwd .entry p = .ok place ∧ t.node? place = none ∧
      t' = t.insert place (.file []) := by
  unfold createFile at h
  split at h
  · cases h
  · next place hlocate =>
    split at h
    · next hfree =>
      cases h
      exact ⟨place, hlocate, hfree, rfl⟩
    · cases h

/-- A file that is made unless there is one is there afterwards, with all else. -/
theorem ensureUnlinked_ok (h : t.ensureUnlinked cwd p = .ok t') :
    ∃ place bytes, t.locate cwd .entry p = .ok place ∧ t'.node? place = some (.file bytes) ∧
      Extends t t' := by
  unfold ensureUnlinked at h
  split at h
  · cases h
  · next place hlocate =>
    split at h
    · next hfree =>
      cases h
      exact ⟨place, [], hlocate, node?_insert_self (ne_nil_of_free hfree), extends_insert hfree⟩
    · next bytes hnode =>
      cases h
      exact ⟨place, bytes, hlocate, hnode, .refl t⟩
    · cases h
    · cases h

theorem ensureUnlinked_of_file (hlocate : t.locate cwd .entry p = .ok place)
    (hnode : t.node? place = some (.file bytes)) : t.ensureUnlinked cwd p = .ok t := by
  rw [ensureUnlinked, hlocate]
  dsimp only
  rw [hnode]

theorem writeFile_ok (h : t.writeFile cwd p bytes = .ok t') :
    ∃ place, t.locate cwd .writing p = .ok place ∧ t.node? place ≠ some .directory ∧
      t' = t.insert place (.file bytes) := by
  unfold writeFile at h
  split at h
  · cases h
  · next place hlocate =>
    split at h
    · cases h
    · next hother =>
      cases h
      exact ⟨place, hlocate, hother, rfl⟩

/-- What is done at an entry that is to be removed if it is there. -/
theorem unlinkIfPresent_eq (hlocate : t.locate cwd .entry p = .ok place) :
    t.unlinkIfPresent cwd p =
      match t.node? place with
      | none => .ok t
      | some .directory => .error (.system .isADirectory p.toString)
      | some _ => .ok (t.erase place) := by
  rw [unlinkIfPresent, unlink, hlocate]
  dsimp only
  rcases t.node? place with _ | _ | _ | _ <;> rfl

theorem moveFile_ok {source : String} {p' : Path} (h : t.moveFile cwd p source p' = .ok t') :
    ∃ from_ to_ node, t.locate cwd .entry p = .ok from_ ∧ t.locate cwd .entry p' = .ok to_ ∧
      t.node? from_ = some node ∧ t.node? to_ ≠ some .directory ∧
      t' = (t.erase from_).insert to_ node := by
  unfold moveFile at h
  split at h
  · cases h
  · cases h
  · next from_ to_ hfrom hto =>
    split at h
    · cases h
    · cases h
    · next node hnode hother =>
      cases h
      exact ⟨from_, to_, node, hfrom, hto, hnode, hother, rfl⟩

theorem readText_of_file {text : String} (hlocate : t.locate cwd .target p = .ok place)
    (hnode : t.node? place = some (.file bytes)) (htext : Utf8.decodeText bytes = .ok text) :
    t.readText cwd p = .ok text := by
  rw [readText, readFile, status_eq_ok.2 ⟨place, hlocate, hnode⟩]
  dsimp only
  rw [htext]

/-! ## A file that is made for a while -/

/-- Whether a tree is another with one file more, and a path leads to it. -/
structure Temporary (t t' : FileTree) (cwd : Place) (p : Path) (new : Place) (bytes : List UInt8) :
    Prop where
  free : t.node? new = none
  file : t'.node? new = some (.file bytes)
  rest : ∀ q, q ≠ new → t'.node? q = t.node? q
  locate : t'.locate cwd .entry p = .ok new

namespace Temporary

variable {new : Place}

/-- One more file is in nobody's way. -/
theorem waysIn (h : Temporary t t' cwd p new bytes) : WaysIn t t' := by
  refine .of_agree h.rest ?_ ?_
  · rw [h.free]
    rintro ⟨⟩
  · rw [h.free]
    rintro target ⟨⟩

/-- All that was there is there beside the file. -/
theorem kept (h : Temporary t t' cwd p new bytes) : Extends t t' := by
  intro q node hnode
  rw [h.rest q ?_, hnode]
  rintro rfl
  rw [h.free] at hnode
  cases hnode

theorem of_createFile (hidle : isIdle name = false) (hup : name ≠ "..")
    (h : t.createFile cwd (p.child name) = .ok t') :
    ∃ new, Temporary t t' cwd (p.child name) new [] := by
  obtain ⟨new, hlocate, hfree, rfl⟩ := createFile_ok h
  obtain ⟨hpass, hname, n, d, hn, hleads, rfl⟩ := (locate_entry_child hidle hup).1 hlocate
  refine ⟨d ++ [name], hfree, node?_insert_self (ne_nil_of_free hfree),
    fun q hq => node?_insert_of_ne hq, (locate_entry_child hidle hup).2
      ⟨hpass, hname, n, d, hn, hleads.mono (extends_insert hfree).waysIn, rfl⟩⟩

/-- Writing to the file keeps it where it is: the same path leads to the same place. -/
theorem writeFile {written : List UInt8} (hidle : isIdle name = false) (hup : name ≠ "..")
    (htemporary : Temporary t t' cwd (p.child name) new bytes)
    (h : t'.writeFile cwd (p.child name) written = .ok t'') :
    Temporary t t'' cwd (p.child name) new written := by
  obtain ⟨place, hlocate, -, rfl⟩ := writeFile_ok h
  obtain ⟨hpass, hname, n, d, hn, hleads, rfl⟩ := (locate_entry_child hidle hup).1 htemporary.locate
  have hfile := htemporary.file
  obtain ⟨-, n', d', -, hleads', hlast⟩ := (locate_child hidle).1 hlocate
  obtain ⟨-, rfl⟩ := hleads.unique hleads'
  rw [walk_unlinked hname (by rw [hfile]; rintro target ⟨⟩)] at hlast
  obtain rfl := Except.ok.inj hlast
  have hways : WaysIn t' (t'.insert (d ++ [name]) (.file written)) := by
    refine .of_agree (fun q hq => node?_insert_of_ne hq) ?_ ?_
    · rw [hfile]
      rintro ⟨⟩
    · rw [hfile]
      rintro target ⟨⟩
  refine ⟨htemporary.free, node?_insert_self (ne_nil_of_free htemporary.free), fun q hq => ?_,
    (locate_entry_child hidle hup).2 ⟨hpass, hname, n, d, hn, hleads.mono hways, rfl⟩⟩
  rw [node?_insert_of_ne hq, htemporary.rest q hq]

/-- **Removing the file leaves nothing of it.** -/
theorem removed (h : Temporary t t' cwd p new bytes) :
    ∃ t'', t'.unlinkIfPresent cwd p = .ok t'' ∧ ∀ q, t''.node? q = t.node? q := by
  refine ⟨t'.erase new, ?_, fun q => ?_⟩
  · rw [unlinkIfPresent_eq h.locate, h.file]
  · by_cases hq : q = new
    · rw [hq, h.free, node?_erase _ _ _ (ne_nil_of_free h.free), if_pos rfl]
    · rw [node?_erase_of_ne hq, h.rest q hq]

/-- **Moving the file over another replaces that one and leaves all else as it was.** -/
theorem moved {source : String} {p' : Path} (h : Temporary t t' cwd p new bytes)
    (hmove : t'.moveFile cwd p source p' = .ok t'') :
    ∃ place, t'.locate cwd .entry p' = .ok place ∧ t.node? place ≠ some .directory ∧
      t''.node? place = some (.file bytes) ∧ ∀ q, q ≠ place → t''.node? q = t.node? q := by
  obtain ⟨from_, to_, node, hfrom, hto, hnode, hother, rfl⟩ := moveFile_ok hmove
  obtain rfl := Except.ok.inj (h.locate.symm.trans hfrom)
  rw [h.file] at hnode
  obtain rfl := Option.some.inj hnode
  have hroot : to_ ≠ [] := by
    rintro rfl
    exact hother rfl
  refine ⟨to_, hto, fun hdirectory => hother (h.waysIn.directory hdirectory),
    node?_insert_self hroot, fun q hq => ?_⟩
  rw [node?_insert_of_ne hq]
  by_cases hq' : q = new
  · rw [hq', h.free, node?_erase _ _ _ (ne_nil_of_free h.free), if_pos rfl]
  · rw [node?_erase_of_ne hq', h.rest q hq']

end Temporary

/-- **Moving a new file over another replaces that one and leaves all else as it was.** -/
theorem replaced_by_moving {t₁ t₂ t₃ : FileTree} {source : String} {p' : Path}
    (hidle : isIdle name = false) (hup : name ≠ "..")
    (hcreate : t.createFile cwd (p.child name) = .ok t₁)
    (hwrite : t₁.writeFile cwd (p.child name) bytes = .ok t₂)
    (hmove : t₂.moveFile cwd (p.child name) source p' = .ok t₃) :
    ∃ place, t₂.locate cwd .entry p' = .ok place ∧ WaysIn t t₂ ∧
      t.node? place ≠ some .directory ∧ t₃.node? place = some (.file bytes) ∧
      ∀ q, q ≠ place → t₃.node? q = t.node? q := by
  obtain ⟨new, hmade⟩ := Temporary.of_createFile hidle hup hcreate
  have hwritten := hmade.writeFile hidle hup hwrite
  obtain ⟨place, hlocate, hother, hfile, hrest⟩ := hwritten.moved hmove
  exact ⟨place, hlocate, hwritten.waysIn, hother, hfile, hrest⟩

/-! ## Additions -/

/-- Whether a tree is another with directories added where nothing was, and with empty files in
some places where nothing was. -/
structure Adds (Q : Place → Prop) (t t' : FileTree) : Prop where
  keeps : Extends t t'
  added : ∀ q, t.node? q = none → t'.node? q = none ∨ t'.node? q = some .directory ∨
    Q q ∧ t'.node? q = some (.file [])

namespace Adds

variable {Q R : Place → Prop}

theorem refl (Q : Place → Prop) (t : FileTree) : Adds Q t t := ⟨.refl t, fun _ => .inl⟩

theorem trans (h : Adds Q t t') (h' : Adds Q t' t'') : Adds Q t t'' := by
  refine ⟨h.keeps.trans h'.keeps, fun q hfree => ?_⟩
  rcases h.added q hfree with hfree | hnode | ⟨hq, hnode⟩
  · exact h'.added q hfree
  · exact .inr (.inl (h'.keeps q _ hnode))
  · exact .inr (.inr ⟨hq, h'.keeps q _ hnode⟩)

theorem mono (h : Adds Q t t') (hQR : ∀ q, Q q → R q) : Adds R t t' :=
  ⟨h.keeps, fun q hfree => (h.added q hfree).imp_right (.imp_right (.imp_left (hQR q)))⟩

theorem insert (hfree : t.node? place = none)
    (hnode : node = .directory ∨ Q place ∧ node = .file []) :
    Adds Q t (t.insert place node) := by
  refine ⟨extends_insert hfree, fun q hq => ?_⟩
  by_cases heq : q = place
  · subst heq
    rw [node?_insert_self (ne_nil_of_free hfree)]
    rcases hnode with rfl | ⟨hQ, rfl⟩
    · exact .inr (.inl rfl)
    · exact .inr (.inr ⟨hQ, rfl⟩)
  · rw [node?_insert_of_ne heq]
    exact .inl hq

theorem makeDirectories (Q : Place → Prop) (depth : Nat) (t : FileTree) (cwd : Place) (p : Path) :
    Adds Q t (makeDirectories depth t cwd p).2 := by
  refine makeDirectories_rel (refl Q) trans (fun {t t' p} h => ?_) depth t p
  obtain ⟨place, -, hfree, rfl⟩ := makeDirectory_ok h
  exact insert hfree (.inl rfl)

end Adds

/-- A file that is made unless there is one is there afterwards, and is all that has been added. -/
theorem ensureUnlinked_adds (h : t.ensureUnlinked cwd p = .ok t') :
    ∃ place, t.locate cwd .entry p = .ok place ∧ Adds (· = place) t t' := by
  unfold ensureUnlinked at h
  split at h
  · cases h
  · next place hlocate =>
    refine ⟨place, hlocate, ?_⟩
    split at h
    · next hfree =>
      cases h
      exact .insert hfree (.inr ⟨rfl, rfl⟩)
    · cases h
      exact .refl _ t
    · cases h
    · cases h

end SourceDrift.FileTree
