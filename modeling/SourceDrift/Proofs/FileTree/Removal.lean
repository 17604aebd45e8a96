/-
What a single place has to do with a way.

Two changes at one place come back in all that is said about stored findings. A file is put in
the place of a link: then the ways that led through the link are lost, and only these. Whether
a way led through it need not be told from the path. If the link was read as a file, no way to
a directory can have led through it, because it leads to one thing only, however it is met.

And something is taken away: then a walk that had an answer has one still, or finds that
something is missing. It cannot fail in another manner, so that whoever asks whether something
is there is told that it is not. Whatever is put down by that path afterwards stands in that
place, and all other places are as they were.
-/
import SourceDrift.Proofs.FileTree.Contents

set_option autoImplicit false

namespace SourceDrift.FileTree

variable {t t' : FileTree} {n links : Nat} {here base d q place cwd : Place} {parts : List String}
  {name : String} {aim : Aim} {node : Node} {p : Path}

/-! ## Ways that do not lead through a place -/

/-- A walk that has an answer ends where its parts lead. -/
theorem Leads.eq_of_walk (h : Leads t n here parts d)
    (hwalk : walk t .target links here parts = .ok q) :
    q = d := by
  induction h generalizing links with
  | nil =>
    rw [walk_nil] at hwalk
    exact (Except.ok.inj hwalk).symm
  | idle hidle _ ih =>
    rw [walk_idle hidle] at hwalk
    exact ih hwalk
  | up _ ih =>
    rw [walk_up] at hwalk
    exact ih hwalk
  | down hname hnode _ ih =>
    rw [walk_down hname (by simp) hnode] at hwalk
    exact ih hwalk
  | link hname hnode _ ih =>
    cases links with
    | zero =>
      rw [walk, walkWith_name hname (by simp), hnode] at hwalk
      simp at hwalk
    | succ fewer =>
      rw [walk_link hname (by simp) hnode (by simp)] at hwalk
      exact ih hwalk

/-- **What is read as something else than a directory is on no way to one**, so that whatever is
put there the ways stay. -/
theorem Leads.of_agree (h : Leads t n here parts d) (hbase : Grounded t base) (hname : IsName name)
    (hrest : ∀ q, q ≠ base ++ [name] → t'.node? q = t.node? q)
    (hwalk : walk t .target links base [name] = .ok q) (hq : t.node? q ≠ some .directory) :
    Leads t' n here parts d := by
  induction h with
  | nil => exact .nil
  | idle hidle _ ih => exact .idle hidle ih
  | up _ ih => exact .up ih
  | @down n here d next rest hnext hnode _ ih =>
    refine .down hnext ?_ ih
    rw [hrest, hnode]
    intro heq
    rw [heq] at hnode
    rw [walk_unlinked hname (by rw [hnode]; rintro target ⟨⟩)] at hwalk
    rw [← Except.ok.inj hwalk] at hq
    exact hq hnode
  | @link n here d next target rest hnext hnode h ih =>
    refine .link hnext ?_ ih
    rw [hrest, hnode]
    intro heq
    obtain ⟨rfl, hlast⟩ := List.append_inj' heq rfl
    obtain rfl := List.singleton_inj.1 hlast
    -- The way goes on from where the link leads, and that is a directory.
    obtain ⟨n₁, n₂, m, -, hfirst, -⟩ := h.split
    have hleads : Leads t (n₁ + 1) here [next] m := by
      refine .link hnext hnode ?_
      rw [List.append_nil]
      exact hfirst
    rw [hleads.eq_of_walk hwalk] at hq
    exact hq (hleads.grounded hbase).node

/-! ## Taking something away -/

/-- Whether a walk has an answer or stops because something is missing. -/
def FindsOrMisses (r : Except SystemError Place) : Prop :=
  (∃ q, r = .ok q) ∨ r = .error .notFound

/-- **Taking something away can only make a walk miss something.** -/
theorem walk_erase (h : t.walk aim links here parts = .ok q) :
    FindsOrMisses ((t.erase place).walk aim links here parts) := by
  -- A walk that comes to where something is gone ends there, or misses it.
  have hgone : ∀ {links here name rest}, IsName name → ¬(aim = .writing ∧ rest = [""]) →
      here ++ [name] = place →
      FindsOrMisses ((t.erase place).walk aim links here (name :: rest)) := by
    intro links here name rest hname haim hplace
    rw [walk_missing hname haim (by rw [node?_erase _ _ _ (by simp), if_pos hplace])]
    split
    · exact .inl ⟨_, rfl⟩
    · exact .inr rfl
  have hkept : ∀ {q : Place}, q ≠ [] → q ≠ place → (t.erase place).node? q = t.node? q := by
    intro q hq hplace
    rw [node?_erase _ _ _ hq, if_neg hplace]
  rw [walk_eq_ok] at h
  induction h with
  | nil => exact .inl ⟨_, walk_nil⟩
  | idle hidle _ ih => rwa [walk_idle hidle]
  | up _ ih => rwa [walk_up]
  | @last links here name hname hend =>
    by_cases hplace : here ++ [name] = place
    · exact hgone hname (by simp) hplace
    · have hsame := hkept (by simp) hplace
      exact .inl ⟨_, walk_last hname ⟨by rw [hsame]; exact hend.notDirectory,
        by rw [hsame]; exact hend.notFollowed⟩⟩
  | @down links here q name rest hname haim hnode _ ih =>
    by_cases hplace : here ++ [name] = place
    · exact hgone hname haim hplace
    · rwa [walk_down hname haim ((hkept (by simp) hplace).trans hnode)]
  | @link links here q name target rest hname haim hnode hends _ ih =>
    by_cases hplace : here ++ [name] = place
    · exact hgone hname haim hplace
    · rwa [walk_link hname haim ((hkept (by simp) hplace).trans hnode) hends]

/-- What is left when something is taken away was there before. -/
theorem extends_erase : Extends (t.erase place) t := by
  intro q node hnode
  by_cases hroot : q = []
  · rw [hroot, node?_root] at hnode ⊢
    exact hnode
  · rw [node?_erase _ _ _ hroot] at hnode
    split at hnode
    · cases hnode
    · exact hnode

theorem unlink_ok (h : t.unlink cwd p = .ok t') :
    ∃ place, t.locate cwd .entry p = .ok place ∧ t.node? place ≠ some .directory ∧
      t' = t.erase place := by
  unfold unlink at h
  split at h
  · cases h
  · next place hlocate =>
    split at h
    · cases h
    · cases h
    · next node hother hnode =>
      cases h
      refine ⟨place, hlocate, ?_, rfl⟩
      rw [hnode]
      rintro ⟨⟩
      exact hother rfl

/-- What is there is not missed when it is to be removed. -/
theorem unlink_of_status (hidle : isIdle name = false) (hup : name ≠ "..")
    (hthere : t.status cwd (p.child name) = .ok node)
    (h : t.unlinkIfPresent cwd (p.child name) = .ok t') : t.unlink cwd (p.child name) = .ok t' := by
  obtain ⟨q, hlocate, hnode⟩ := status_eq_ok.1 hthere
  obtain ⟨hpass, n, d, hn, hleads, hlast⟩ := (locate_child hidle).1 hlocate
  have hname := isName_of_walk hidle hup hlast
  have hentry : t.locate cwd .entry (p.child name) = .ok (d ++ [name]) :=
    (locate_entry_child hidle hup).2 ⟨hpass, hname, n, d, hn, hleads, rfl⟩
  have htaken : t.node? (d ++ [name]) ≠ none := by
    intro hfree
    rw [walk_unlinked hname (by rw [hfree]; rintro target ⟨⟩)] at hlast
    rw [← Except.ok.inj hlast, hfree] at hnode
    cases hnode
  unfold unlinkIfPresent at h
  rw [unlink, hentry] at h ⊢
  dsimp only at h ⊢
  rcases hfound : t.node? (d ++ [name]) with _ | _ | _ | _
  · exact absurd hfound htaken
  all_goals
    rw [hfound] at h
    exact h

/-- **Where something has been removed nothing is found any more.** -/
theorem exists_of_unlink (hidle : isIdle name = false) (hup : name ≠ "..")
    (hthere : t.status cwd (p.child name) = .ok node) (h : t.unlink cwd (p.child name) = .ok t') :
    t'.exists? cwd (p.child name) = .ok false := by
  obtain ⟨place, hentry, -, rfl⟩ := unlink_ok h
  obtain ⟨hpass, hname, n, d, -, hleads, rfl⟩ := (locate_entry_child hidle hup).1 hentry
  obtain ⟨q, hlocate, -⟩ := status_eq_ok.1 hthere
  obtain ⟨-, hwalk⟩ := locate_eq_ok.1 hlocate
  have hgone : (t.erase (d ++ [name])).node? (d ++ [name]) = none := by
    rw [node?_erase _ _ _ (by simp), if_pos rfl]
  have hstatus : (t.erase (d ++ [name])).status cwd (p.child name) =
      .error (.system .notFound (p.child name).toString) := by
    -- The way to the name has had an answer, so now it has one or misses something.
    have hwalks : FindsOrMisses
      ((t.erase (d ++ [name])).walk .target 40 (startOf cwd (p.child name))
        (p.child name).parts) := walk_erase hwalk
    rcases hwalks with ⟨q', hfound⟩ | hmissing
    · -- The parts still lead to the directory, and there the name is looked up.
      have hlocate' := locate_eq_ok.2 ⟨hpass, hfound⟩
      obtain ⟨-, n', d', -, hleads', hlast⟩ := (locate_child hidle).1 hlocate'
      obtain ⟨-, rfl⟩ := (hleads'.mono extends_erase.waysIn).unique hleads
      rw [walk_unlinked hname (by rw [hgone]; rintro target ⟨⟩)] at hlast
      obtain rfl := Except.ok.inj hlast
      rw [status, hlocate']
      dsimp only
      rw [hgone]
    · have hlocate' : (t.erase (d ++ [name])).locate cwd .target (p.child name) =
          .error (.system .notFound (p.child name).toString) := by
        unfold startOf at hmissing
        rw [locate, if_neg (by rw [hpass.noNul]; decide), if_neg (Nat.not_lt_of_le hpass.short),
          hmissing]
      rw [status, hlocate']
  rw [exists?, test, hstatus]
  rfl

/-- A path that cannot be handed to the file system cannot be cleared. -/
theorem passable_of_unlinkIfPresent (h : t.unlinkIfPresent cwd p = .ok t') :
    Passable p := by
  refine Classical.byContradiction (fun hpass => ?_)
  unfold unlinkIfPresent unlink at h
  have hrefused : t.locate cwd .entry p = .error .embeddedNul ∨
      t.locate cwd .entry p = .error (.system .nameTooLong p.toString) :=
    locate_of_not_passable .entry hpass
  rcases hrefused with hlocate | hlocate
  · rw [hlocate] at h
    cases h
  · rw [hlocate] at h
    cases h

/-! ## Changes in some places -/

/-- Whether a tree is another but for what is in some places, and for directories that have been
made where nothing was. No directory is lost and no link is made. -/
structure ChangedIn (P : Place → Prop) (t t' : FileTree) : Prop where
  elsewhere : ∀ q, ¬P q → t'.node? q = t.node? q ∨ t.node? q = none ∧ t'.node? q = some .directory
  directory : ∀ q, t.node? q = some .directory → t'.node? q = some .directory
  link : ∀ q target, t'.node? q = some (.link target) → t.node? q = some (.link target)

namespace ChangedIn

variable {t'' : FileTree} {P Q : Place → Prop} {place : Place}

theorem refl (P : Place → Prop) (t : FileTree) : ChangedIn P t t :=
  ⟨fun _ _ => .inl rfl, fun _ => id, fun _ _ => id⟩

theorem trans (h : ChangedIn P t t') (h' : ChangedIn P t' t'') : ChangedIn P t t'' := by
  refine ⟨fun q hq => ?_, fun q hnode => h'.directory q (h.directory q hnode),
    fun q target hnode => h.link q target (h'.link q target hnode)⟩
  rcases h.elsewhere q hq with heq | ⟨hnone, hmade⟩
  · rw [← heq]
    exact h'.elsewhere q hq
  · exact .inr ⟨hnone, h'.directory q hmade⟩

theorem mono (h : ChangedIn P t t') (hPQ : ∀ q, P q → Q q) : ChangedIn Q t t' :=
  ⟨fun q hq => h.elsewhere q (fun hP => hq (hPQ q hP)), h.directory, h.link⟩

/-- A change in one place, from what is no directory to what is no link. -/
theorem of_agree (hplace : P place) (hrest : ∀ q, q ≠ place → t'.node? q = t.node? q)
    (hother : t.node? place ≠ some .directory)
    (hunlinked : ∀ target, t'.node? place ≠ some (.link target)) : ChangedIn P t t' := by
  refine ⟨fun q hq => .inl (hrest q (fun heq => hq (heq ▸ hplace))), fun q hnode => ?_,
    fun q target hnode => ?_⟩
  · rw [hrest q (fun heq => hother (heq ▸ hnode)), hnode]
  · rw [← hrest q (fun heq => hunlinked target (heq ▸ hnode)), hnode]

theorem insert {node : Node} (hplace : P place) (hother : t.node? place ≠ some .directory)
    (hunlinked : ∀ target, node ≠ .link target) : ChangedIn P t (t.insert place node) := by
  refine of_agree hplace (fun _ => node?_insert_of_ne) hother (fun target hnode => ?_)
  have hroot : place ≠ [] := by
    rintro rfl
    exact hother (node?_root t)
  rw [node?_insert_self hroot] at hnode
  exact hunlinked target (Option.some.inj hnode)

theorem erase (hplace : P place) (hother : t.node? place ≠ some .directory) :
    ChangedIn P t (t.erase place) := by
  refine of_agree hplace (fun _ => node?_erase_of_ne) hother (fun target hnode => ?_)
  have hroot : place ≠ [] := by
    rintro rfl
    exact hother (node?_root t)
  rw [node?_erase _ _ _ hroot, if_pos rfl] at hnode
  cases hnode

theorem makeDirectories (P : Place → Prop) (depth : Nat) (t : FileTree) (cwd : Place) (p : Path) :
    ChangedIn P t (makeDirectories depth t cwd p).2 := by
  refine makeDirectories_rel (refl P) trans (fun {t t' p} h => ?_) depth t p
  obtain ⟨place, -, hfree, rfl⟩ := makeDirectory_ok h
  have hmade : (t.insert place .directory).node? place = some .directory :=
    node?_insert_self (ne_nil_of_free hfree)
  refine ⟨fun q _ => ?_, fun q hnode => extends_insert hfree q _ hnode, fun q target hnode => ?_⟩
  · by_cases hq : q = place
    · rw [hq]
      exact .inr ⟨hfree, hmade⟩
    · exact .inl (node?_insert_of_ne hq)
  · by_cases hq : q = place
    · rw [hq, hmade] at hnode
      cases hnode
    · rw [← hnode, node?_insert_of_ne hq]

/-- Where no link changes, the ways stay. -/
theorem waysIn (h : ChangedIn P t t')
    (hunlinked : ∀ q target, P q → t.node? q ≠ some (.link target)) :
    WaysIn t t' := by
  refine ⟨fun {q} => h.directory q, fun {q target} hnode => ?_⟩
  rcases h.elsewhere q (fun hq => hunlinked q target hq hnode) with heq | ⟨hnone, -⟩
  · rw [heq, hnode]
  · rw [hnone] at hnode
    cases hnode

/-- **What is there without the places that change is there still.** -/
theorem extends_without {t₀ : FileTree} (h : ChangedIn P t t') (hextends : Extends t₀ t)
    (hwithout : ∀ q, q ≠ [] → P q → t₀.node? q = none) : Extends t₀ t' := by
  intro q node hnode
  by_cases hroot : q = []
  · rw [hroot, node?_root] at hnode ⊢
    exact hnode
  · have hother : ¬P q := by
      intro hq
      rw [hwithout q hroot hq] at hnode
      cases hnode
    have hbefore := hextends q node hnode
    rcases h.elsewhere q hother with heq | ⟨hnone, -⟩
    · rw [heq, hbefore]
    · rw [hnone] at hbefore
      cases hbefore

theorem extends_erase {out : Place} (h : ChangedIn (· = out) t t') : Extends (t.erase out) t' :=
  h.extends_without FileTree.extends_erase fun q hroot hq => by
    rw [node?_erase _ _ _ hroot, if_pos hq]

end ChangedIn

/-- Whether a path leads to one place, if it leads anywhere, and there is nothing. -/
def Vacant (t : FileTree) (cwd : Place) (p : Path) (out : Place) : Prop :=
  ∀ aim place, t.locate cwd aim p = .ok place → place = out ∧ t.node? out = none

/-- A path that leads to a directory in which nothing has its last name leads to nothing else. -/
theorem vacant_of_leads {n : Nat} (hidle : isIdle name = false) (hname : IsName name)
    (hleads : Leads t n (startOf cwd p) p.parts d) (hfree : t.node? (d ++ [name]) = none) :
    Vacant t cwd (p.child name) (d ++ [name]) := by
  intro aim q hlocate
  obtain ⟨-, _, _, -, hleads', hlast⟩ := (locate_child hidle).1 hlocate
  obtain ⟨-, rfl⟩ := hleads'.unique hleads
  rw [walk_unlinked hname (by rw [hfree]; rintro target ⟨⟩)] at hlast
  exact ⟨(Except.ok.inj hlast).symm, hfree⟩

/-- A path that does not lead to an entry leads nowhere. -/
theorem vacant_of_error {e : Failure} (out : Place) (hidle : isIdle name = false)
    (hup : name ≠ "..")
    (hentry : t.locate cwd .entry (p.child name) = .error e) : Vacant t cwd (p.child name) out := by
  intro aim q hlocate
  obtain ⟨hpass, n, d, hn, hleads, hlast⟩ := (locate_child hidle).1 hlocate
  have hname := isName_of_walk hidle hup hlast
  rw [(locate_entry_child hidle hup).2 ⟨hpass, hname, n, d, hn, hleads, rfl⟩] at hentry
  cases hentry

/-- **Removing what is at a path, if there is something, clears its place.** -/
theorem vacant_of_unlinkIfPresent (hidle : isIdle name = false) (hup : name ≠ "..")
    (h : t.unlinkIfPresent cwd (p.child name) = .ok t') :
    ∃ out, out.getLast? = some name ∧ ChangedIn (· = out) t t' ∧
    Vacant t' cwd (p.child name) out := by
  cases hentry : t.locate cwd .entry (p.child name) with
  | error e =>
    rw [unlinkIfPresent, unlink, hentry] at h
    dsimp only at h
    split at h
    · next heq => cases heq
    · cases h
      exact ⟨[name], rfl, .refl _ _, vacant_of_error _ hidle hup hentry⟩
    · cases h
  | ok place =>
    obtain ⟨hpass, hname, n, d, -, hleads, rfl⟩ := (locate_entry_child hidle hup).1 hentry
    refine ⟨d ++ [name], List.getLast?_concat, ?_⟩
    cases hnode : t.node? (d ++ [name]) with
    | none =>
      rw [unlinkIfPresent_eq hentry, hnode] at h
      cases h
      exact ⟨.refl _ _, vacant_of_leads hidle hname hleads hnode⟩
    | some node =>
      have herased : t.node? (d ++ [name]) ≠ some .directory ∧ t' = t.erase (d ++ [name]) := by
        rw [unlinkIfPresent_eq hentry, hnode] at h
        rw [hnode]
        cases node with
        | directory => cases h
        | file bytes | link target =>
          refine ⟨?_, (Except.ok.inj h).symm⟩
          rintro ⟨⟩
      rw [herased.2]
      refine ⟨.erase rfl herased.1, fun aim q hlocate => ?_⟩
      -- The way to the directory may have led through what is gone; if it does not, it is the same.
      obtain ⟨-, _, _, -, hleads', -⟩ := (locate_child hidle).1 hlocate
      obtain ⟨-, rfl⟩ := (hleads'.mono extends_erase.waysIn).unique hleads
      refine vacant_of_leads hidle hname hleads' ?_ aim q hlocate
      rw [node?_erase _ _ _ (by simp), if_pos rfl]

theorem Vacant.status_ne_ok {out : Place} (hvacant : Vacant t cwd p out) :
    t.status cwd p ≠ .ok node := by
  intro hstatus
  obtain ⟨q, hlocate, hnode⟩ := status_eq_ok.1 hstatus
  obtain ⟨rfl, hfree⟩ := hvacant _ _ hlocate
  rw [hfree] at hnode
  cases hnode

/-- **What is put in a cleared place is found there.** -/
theorem Vacant.status_insert {out : Place} (hvacant : Vacant t cwd (p.child name) out)
    (hidle : isIdle name = false) (hup : name ≠ "..")
    (hlocate : t.locate cwd aim (p.child name) = .ok q) (hnode : ∀ target, node ≠ .link target) :
    (t.insert out node).status cwd (p.child name) = .ok node := by
  obtain ⟨hpass, n, d, hn, hleads, hlast⟩ := (locate_child hidle).1 hlocate
  have hname := isName_of_walk hidle hup hlast
  obtain ⟨rfl, hfree⟩ := hvacant .entry _
    ((locate_entry_child hidle hup).2 ⟨hpass, hname, n, d, hn, hleads, rfl⟩)
  have hput : (t.insert (d ++ [name]) node).node? (d ++ [name]) = some node :=
    node?_insert_self (ne_nil_of_free hfree)
  refine status_eq_ok.2 ⟨d ++ [name], (locate_child hidle).2
    ⟨hpass, n, d, hn, hleads.mono (extends_insert hfree).waysIn, walk_unlinked hname ?_⟩, hput⟩
  rw [hput]
  rintro target heq
  exact hnode target (Option.some.inj heq)

/-- A file that is put down anywhere turns no way. So if there is one at the end of a cleared path,
it is this one in the place that was cleared. -/
theorem Vacant.eq_of_readFile_insert {out : Place} {written bytes : List UInt8}
    (hvacant : Vacant t cwd (p.child name) out) (hidle : isIdle name = false) (hup : name ≠ "..")
    (hq : q ≠ []) (hread : (t.insert q (.file written)).readFile cwd (p.child name) = .ok bytes) :
    q = out ∧ bytes = written := by
  have hself : (t.insert q (.file written)).node? q = some (.file written) := node?_insert_self hq
  have hways : WaysIn (t.insert q (.file written)) t :=
    .of_agree (fun x hx => (node?_insert_of_ne hx).symm) (by rw [hself]; rintro ⟨⟩)
      (by rw [hself]; rintro target ⟨⟩)
  obtain ⟨place, hlocate, hnode⟩ := status_eq_ok.1 (readFile_eq_ok.1 hread)
  obtain ⟨hpass, n, d, hn, hleads, hlast⟩ := (locate_child hidle).1 hlocate
  have hname := isName_of_walk hidle hup hlast
  obtain ⟨rfl, hfree⟩ := hvacant .entry _
    ((locate_entry_child hidle hup).2 ⟨hpass, hname, n, d, hn, hleads.mono hways, rfl⟩)
  have hunlinked : ∀ target, (t.insert q (.file written)).node? (d ++ [name]) ≠
      some (.link target) := by
    intro target hlink
    have hbefore := hways.link hlink
    rw [hfree] at hbefore
    cases hbefore
  rw [walk_unlinked hname hunlinked] at hlast
  rw [← Except.ok.inj hlast] at hnode
  -- What is read is what has been put down, because nothing else was there.
  by_cases heq : d ++ [name] = q
  · rw [heq, hself] at hnode
    exact ⟨heq.symm, (Node.file.inj (Option.some.inj hnode)).symm⟩
  · rw [node?_insert_of_ne heq, hfree] at hnode
    cases hnode

end SourceDrift.FileTree
