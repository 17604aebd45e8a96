/-
Paths that a run takes up in its own directory.

A run works in the directory of its workspace, and is told two paths: the workspace, and where to
write its document. The process that starts it clears the place of the document before, and reads it
afterwards, and follows the same paths from the directory that it is in itself. A path from the root
leads both to one place. A relative one is followed twice, and means the same only if it leads from
the directory that it leads to back to that directory.

`relative_roots_are_taken_twice` says when the two agree and what comes of it. If they do, an
analysis finds what it finds under the path from the root. If they do not, what the run leaves
stands elsewhere, and an analysis that would have succeeded fails.
-/
import SourceDrift.Proofs.Analyzer.Verdict
import SourceDrift.Proofs.FileTree.Rooted
import SourceDrift.Proofs.FileTree.Straight

set_option autoImplicit false

namespace SourceDrift.Analyzer

open FileTree SourceDrift.Action

variable {t : FileTree} {cwd d out : Place} {h h₂ : Host} {root p : Path} {solc : String}
  {timeout : Int} {items : List Json}

/-! ## The path from the root -/

theorem isPassable_fromRoot (hp : BothPassable cwd p) :
    isPassable (p.fromRoot cwd).toString = true := by
  refine isPassable_of_passable ?_ hp.fromRoot
  unfold Path.fromRoot Path.join
  by_cases habsolute : p.isAbsolute = true
  · rw [if_pos habsolute]
    exact hp.proper.anchor
  · rw [if_neg habsolute]
    exact .inr (.inl rfl)

theorem output_fromRoot (cwd : Place) (root : Path) :
    Storage.output (root.fromRoot cwd) = (Storage.output root).fromRoot cwd := by
  unfold Storage.output Storage.directory
  rw [fromRoot_child, fromRoot_child]

theorem proper_output (hroot : root.Proper) : (Storage.output root).Proper :=
  (hroot.child ⟨by decide, by decide⟩).child ⟨by decide, by decide⟩

/-- **Clearing the place of the document** under the path from the root comes to the same. -/
theorem prepare_fromRoot (hroot : root.Proper) (hcwd : Grounded h.files h.cwd)
    (hpass : Passable (Storage.output (root.fromRoot h.cwd)))
    (hprepare : prepare (Storage.output root) h = .ok () h₂) :
    prepare (Storage.output (root.fromRoot h.cwd)) h = .ok () h₂ := by
  by_cases habsolute : root.isAbsolute = true
  · rw [fromRoot_of_isAbsolute habsolute]
    exact hprepare
  · obtain ⟨anchor, parts⟩ := root
    obtain rfl : anchor = "" := by simpa [Path.isAbsolute] using habsolute
    obtain ⟨made, files, hmade, hremoved, rfl⟩ := prepare_eq_ok.1 hprepare
    rw [output_fromRoot] at hpass ⊢
    have hboth : BothPassable h.cwd (Storage.output ⟨"", parts⟩) :=
      ⟨proper_output hroot, passable_of_unlinkIfPresent hremoved, hpass⟩
    refine prepare_eq_ok.2 ⟨made, files, ?_, ?_, rfl⟩
    · have hdirectory : Storage.output ⟨"", parts⟩ =
          Path.child ⟨"", parts ++ [".slither"]⟩ "analyzer-output.json" := rfl
      rw [hdirectory] at hboth hmade ⊢
      rw [Path.parent_child] at hmade
      rw [fromRoot_child, Path.parent_child]
      exact makeDirectories_fromRoot hcwd hboth.above (Nat.le_refl _) hmade
    · exact unlinkIfPresent_fromRoot (hcwd.of_makeDirectories hmade) hboth hremoved

/-! ## Where a run is led -/

/-- A path at which there is a directory leads to it. -/
theorem exists_leads_of_locate (hlocate : t.locate cwd .target p = .ok d)
    (hnode : t.node? d = some .directory) : ∃ n, n ≤ 40 ∧ Leads t n (startOf cwd p) p.parts d := by
  obtain ⟨-, hwalk⟩ := locate_eq_ok.1 hlocate
  rw [← List.append_nil p.parts] at hwalk
  obtain ⟨n, d', hn, hleads, hrest⟩ := exists_leads_of_walk (.inr ⟨rfl, hnode⟩) hwalk
  rw [walk_nil] at hrest
  cases hrest
  exact ⟨n, hn, hleads⟩

/-- A place at which there is nothing is the one place of its path, whatever it is wanted for. -/
theorem locate_of_free {name : String} (hidle : isIdle name = false) (hup : name ≠ "..")
    (hlocate : t.locate cwd .entry (p.child name) = .ok out) (hfree : t.node? out = none)
    (aim : Aim) :
    t.locate cwd aim (p.child name) = .ok out := by
  obtain ⟨hpass, hname, n, d, hn, hleads, rfl⟩ := (locate_entry_child hidle hup).1 hlocate
  refine (locate_child hidle).2 ⟨hpass, n, d, hn, hleads, walk_unlinked hname ?_⟩
  rw [hfree]
  rintro target ⟨⟩

/-- Behind the directory of the workspace the way to the document does not depend on how that was
found. -/
theorem exists_behind {n : Nat} (hleads : Leads t n (startOf cwd root) root.parts d)
    (hlocate : t.locate cwd .entry (Storage.output root) = .ok out) :
    ∃ m e, Leads t m d [".slither"] e ∧ out = e ++ ["analyzer-output.json"] := by
  obtain ⟨-, -, k, e, -, hway, rfl⟩ := (locate_entry_child (by decide) (by decide)).1 hlocate
  have hparts : (Storage.directory root).parts = root.parts ++ [".slither"] := rfl
  rw [hparts] at hway
  obtain ⟨_, m, d', -, hfirst, hbehind⟩ := hway.split
  obtain ⟨-, rfl⟩ := hfirst.unique hleads
  exact ⟨m, e, hbehind, rfl⟩

/-- Whether a process that has cleared the place of a run's document is led to a directory and to a
place, where there is nothing, for the document. -/
structure Led (h : Host) (root : Path) (d out : Place) : Prop where
  workspace : h.files.locate h.cwd .target root = .ok d
  directory : h.files.node? d = some .directory
  output : h.files.locate h.cwd .entry (Storage.output root) = .ok out
  free : h.files.node? out = none

theorem led_of_prepare (hprepare : prepare (Storage.output root) h = .ok () h₂)
    (hrun : runDirectory h₂ (some root) = .ok d)
    (hout : h₂.files.locate h₂.cwd .entry (Storage.output root) = .ok out) : Led h₂ root d out := by
  obtain ⟨hworkspace, hdirectory⟩ := runDirectory_eq_ok.1 hrun
  obtain ⟨place, files, rfl, -, -, hvacant⟩ := vacant_of_prepare (by decide) (by decide) hprepare
  obtain ⟨rfl, hfree⟩ := hvacant _ _ hout
  exact ⟨hworkspace, hdirectory, hout, hfree⟩

/-- Whether what a run is told leads it, from the directory that it works in, to that directory and
to the place at which its document is looked for. -/
structure MeansTheSame (h : Host) (root : Path) (d out : Place) : Prop where
  workspace : h.files.locate d .target (Path.ofString root.toString) = .ok d
  output : ∀ aim, h.files.locate d aim (Path.ofString (Storage.output root).toString) = .ok out

/-- **A run is led where the process is** if the workspace's path leads from the workspace to
itself. -/
theorem Led.meansTheSame_iff (hled : Led h root d out) (hroot : root.Proper) :
    MeansTheSame h root d out ↔ h.files.locate d .target root = .ok d ∧
      ∃ place, h.files.locate d .entry (Storage.output root) = .ok place := by
  have hspelt := hroot.ofString_toString
  have hspelt' := (proper_output hroot).ofString_toString
  constructor
  · rintro ⟨hworkspace, houtput⟩
    rw [hspelt] at hworkspace
    rw [hspelt'] at houtput
    exact ⟨hworkspace, out, houtput .entry⟩
  · rintro ⟨hback, place, hplace⟩
    obtain ⟨n, -, hleads⟩ := exists_leads_of_locate hled.workspace hled.directory
    obtain ⟨n', -, hleads'⟩ := exists_leads_of_locate hback hled.directory
    -- Both ways come by the workspace, and from there on they are one.
    obtain ⟨m, e, hbehind, hout⟩ := exists_behind hleads hled.output
    obtain ⟨m', e', hbehind', rfl⟩ := exists_behind hleads' hplace
    obtain ⟨-, rfl⟩ := hbehind'.unique hbehind
    have hfree := hled.free
    subst hout
    refine ⟨by rw [hspelt]; exact hback, fun aim => ?_⟩
    rw [hspelt']
    exact locate_of_free (by decide) (by decide) hplace hfree aim

/-- **A path from the root means the same to a run.** -/
theorem Led.meansTheSame_of_isAbsolute (hled : Led h root d out) (hroot : root.Proper)
    (habsolute : root.isAbsolute = true) : MeansTheSame h root d out := by
  have houtput : (Storage.output root).isAbsolute = true := habsolute
  refine (hled.meansTheSame_iff hroot).2 ⟨?_, out, ?_⟩
  · rw [locate_of_isAbsolute habsolute .target d h.cwd]
    exact hled.workspace
  · rw [locate_of_isAbsolute houtput .entry d h.cwd]
    exact hled.output

theorem links_of_unlinked {n : Nat} {parts : List String} (h : Leads t n cwd parts d)
    (hunlinked : ∀ q target, t.node? q ≠ some (.link target)) : n = 0 := by
  induction h with
  | nil => rfl
  | idle _ _ ih | up _ ih | down _ _ _ ih => exact ih
  | link _ hnode _ _ => exact absurd hnode (hunlinked _ _)

/-- **Without links and double dots a relative path means the same to a run only if it is
empty.** -/
theorem Led.meansTheSame_iff_here (hled : Led h root d out) (hroot : root.Proper)
    (hrelative : root.isAbsolute = false) (hup : ".." ∉ root.parts)
    (hunlinked : ∀ q target, h.files.node? q ≠ some (.link target)) :
    MeansTheSame h root d out ↔ root.parts = [] := by
  have hstart : ∀ here, startOf here root = here := fun here => if_neg (by rw [hrelative]; decide)
  rw [hled.meansTheSame_iff hroot]
  constructor
  · rintro ⟨hback, -⟩
    obtain ⟨n, -, hleads⟩ := exists_leads_of_locate hback hled.directory
    rw [hstart] at hleads
    -- Such a way leads down by all of its parts, and so back to where it starts if there are none.
    have hplace := hleads.eq_resolveDots (links_of_unlinked hleads hunlinked) hroot.parts
    rw [Path.resolveDots_of_not_mem hup, List.reverse_reverse] at hplace
    exact List.append_right_eq_self.1 hplace
  · intro hparts
    obtain ⟨n, -, hleads⟩ := exists_leads_of_locate hled.workspace hled.directory
    rw [hstart, hparts] at hleads
    have hhere : d = h.cwd := by
      cases hleads
      rfl
    rw [hhere]
    exact ⟨hhere ▸ hled.workspace, out, hled.output⟩

/-! ## What comes of it -/

/-- What a run puts down depends on nothing but where its path leads. Only in what it says when it
is refused the two differ, because it names the path. -/
theorem putDown_file_of_concur {d' : Place} {p' : Path}
    (hsame : Concur (t.locate d .writing p) (t.locate d' .writing p')) (bytes : List UInt8) :
    (putDown t d p (.file bytes)).1 = (putDown t d' p' (.file bytes)).1 := by
  unfold putDown writeFile
  dsimp only
  rcases hsame with ⟨place, hplace, hplace'⟩ | ⟨cause, _, _, hfails, hfails'⟩
  · rw [hplace, hplace']
    dsimp only
    rcases t.node? place with _ | _ | _ | _ <;> rfl
  · rw [hfails, hfails']

theorem putDown_of_concur {d' : Place} {p' : Path}
    (hsame : ∀ aim, Concur (t.locate d aim p) (t.locate d' aim p')) (leaving : Leaving) :
    (putDown t d p leaving).1 = (putDown t d' p' leaving).1 := by
  cases leaving with
  | nothing => rfl
  | file bytes => exact putDown_file_of_concur (hsame .writing) bytes
  | directory =>
    unfold putDown makeDirectory
    dsimp only
    rcases hsame .entry with ⟨place, hplace, hplace'⟩ | ⟨cause, _, _, hfails, hfails'⟩
    · rw [hplace, hplace']
      dsimp only
      cases t.node? place <;> rfl
    · rw [hfails, hfails']

/-- What a run puts down takes the place of no directory. -/
theorem grounded_putDown (hcwd : Grounded t cwd) (leaving : Leaving) :
    Grounded (putDown t d p leaving).1 cwd := by
  cases leaving with
  | nothing => exact hcwd
  | file bytes =>
    rw [putDown]
    cases hwrite : t.writeFile d p bytes with
    | error e => exact hcwd
    | ok t' =>
      obtain ⟨place, -, hother, rfl⟩ := writeFile_ok hwrite
      refine hcwd.mono fun {q} hnode => ?_
      have hne : q ≠ place := by
        rintro rfl
        exact hother hnode
      rw [node?_insert_of_ne hne, hnode]
  | directory =>
    rw [putDown]
    cases hmake : t.makeDirectory d p with
    | error e => exact hcwd
    | ok t' => exact hcwd.mono (makeDirectory_extends hmake).waysIn.directory

/-- A run that works in a known directory succeeds if it is told what can be told, starts, ends in
time and leaves a report. -/
theorem succeeds_iff {output : Path} (hrun : runDirectory h (some root) = .ok d) :
    Succeeds h root output solc timeout items ↔
      (h.tool.command :: arguments root output solc).all isPassable = true ∧
        startFailure h.tool = none ∧ EndsWithin (h.tool.analyze (h.key root)) timeout ∧
          ∃ bytes, LeavesAt h root output d bytes ∧ IsReport h.room bytes items := by
  constructor
  · rintro ⟨d', bytes, hstarts, hends, hleaves, hreport⟩
    obtain rfl : d = d' := Except.ok.inj (hrun.symm.trans hstarts.there)
    exact ⟨hstarts.told, hstarts.present, hends, bytes, hleaves, hreport⟩
  · rintro ⟨htold, hpresent, hends, bytes, hleaves, hreport⟩
    exact ⟨d, bytes, ⟨htold, hrun, hpresent⟩, hends, hleaves, hreport⟩

/-- Two paths that can be told to a program make no difference to what it is told. -/
theorem told_congr {root' output output' : Path} (hroot : isPassable root.toString = true)
    (houtput : isPassable output.toString = true) (hroot' : isPassable root'.toString = true)
    (houtput' : isPassable output'.toString = true) (command solc : String) :
    (command :: arguments root' output' solc).all isPassable =
      (command :: arguments root output solc).all isPassable := by
  simp only [arguments, List.cons_append, List.all_cons, hroot, houtput, hroot', houtput']

/-- Whether a run can be told a workspace's path, and the same path from the root. -/
structure ToldAlike (h : Host) (root : Path) : Prop where
  proper : root.Proper
  grounded : Grounded h.files h.cwd
  passable : Passable (Storage.output (root.fromRoot h.cwd))

namespace Led

variable (hled : Led h root d out)
include hled

theorem bothPassable_output (halike : ToldAlike h root) :
    BothPassable h.cwd (Storage.output root) := by
  have hpass := halike.passable
  rw [output_fromRoot] at hpass
  exact ⟨proper_output halike.proper, (locate_eq_ok.1 hled.output).1, hpass⟩

theorem bothPassable_root (halike : ToldAlike h root) : BothPassable h.cwd root := by
  refine ⟨halike.proper, (locate_eq_ok.1 hled.workspace).1, ?_⟩
  by_cases habsolute : root.isAbsolute = true
  · rw [fromRoot_of_isAbsolute habsolute]
    exact (locate_eq_ok.1 hled.workspace).1
  · have hdirectory : Passable ((root.fromRoot h.cwd).child ".slither") :=
      halike.passable.of_child (List.append_ne_nil_of_right_ne_nil _ (List.cons_ne_nil _ _))
    refine hdirectory.parent (.inr ?_)
    rw [Path.fromRoot, Path.join, if_neg habsolute]

/-- **A run that is told the path from the root leaves its report where the process would.** -/
theorem succeeds_fromRoot_iff (halike : ToldAlike h root) :
    Succeeds h (root.fromRoot h.cwd) (Storage.output (root.fromRoot h.cwd)) solc timeout items ↔
      (h.tool.command :: arguments root (Storage.output root) solc).all isPassable = true ∧
        startFailure h.tool = none ∧ EndsWithin (h.tool.analyze (h.key root)) timeout ∧
          ∃ bytes, LeavesAt h root (Storage.output root) h.cwd bytes ∧
            IsReport h.room bytes items := by
  have houtput := hled.bothPassable_output halike
  have hroot := hled.bothPassable_root halike
  have hrun : runDirectory h (some (root.fromRoot h.cwd)) = .ok d :=
    runDirectory_eq_ok.2
      ⟨(concur_locate halike.grounded hroot .target h.cwd).eq_ok_iff.1 hled.workspace,
      hled.directory⟩
  have htold := told_congr (isPassable_of_passable hroot.proper.anchor hroot.here)
    (isPassable_of_passable houtput.proper.anchor houtput.here) (isPassable_fromRoot hroot)
    (isPassable_fromRoot houtput) h.tool.command solc
  have hkey : h.key (root.fromRoot h.cwd) = h.key root := key_fromRoot h.cwd root
  -- From the root the run comes to where the process does, in the tree before and in the one after.
  have hleaves : ∀ bytes,
      LeavesAt h (root.fromRoot h.cwd) (Storage.output (root.fromRoot h.cwd)) d bytes ↔
        LeavesAt h root (Storage.output root) h.cwd bytes := by
    intro bytes
    have hput := putDown_of_concur (fun aim => concur_locate halike.grounded houtput aim d)
      (h.tool.analyze (h.key root)).leaving
    unfold LeavesAt
    rw [hkey, output_fromRoot, ← hput]
    exact (concur_readFile (grounded_putDown halike.grounded _) houtput).eq_ok_iff.symm
  rw [← output_fromRoot] at htold
  rw [succeeds_iff hrun, htold, hkey]
  simp only [hleaves]

theorem locate_output (aim : Aim) : h.files.locate h.cwd aim (Storage.output root) = .ok out :=
  locate_of_free (by decide) (by decide) hled.output hled.free aim

theorem vacant : Vacant h.files h.cwd (Storage.output root) out := by
  intro aim place hplace
  rw [hled.locate_output] at hplace
  cases hplace
  exact ⟨rfl, hled.free⟩

/-- **A run that means the same has the same success** under the path from the root. -/
theorem succeeds_iff_fromRoot (halike : ToldAlike h root) (hmeans : MeansTheSame h root d out) :
    Succeeds h root (Storage.output root) solc timeout items ↔
      Succeeds h (root.fromRoot h.cwd)
      (Storage.output (root.fromRoot h.cwd)) solc timeout items := by
  have hrun : runDirectory h (some root) = .ok d :=
    runDirectory_eq_ok.2 ⟨hled.workspace, hled.directory⟩
  have hspelt := (proper_output halike.proper).ofString_toString
  have hsame : ∀ aim, Concur (h.files.locate d aim (Storage.output root))
      (h.files.locate h.cwd aim (Storage.output root)) := by
    intro aim
    have hmeant := hmeans.output aim
    rw [hspelt] at hmeant
    rw [hmeant, hled.locate_output aim]
    exact .ok out
  rw [succeeds_iff hrun, hled.succeeds_fromRoot_iff halike]
  unfold LeavesAt
  rw [putDown_of_concur hsame]

/-- **Where a run would succeed under the path from the root** it does so under the relative one
only if that leads it to the place at which its document is looked for. -/
theorem succeeds_iff_there (halike : ToldAlike h root)
    (hsucceeds : Succeeds h (root.fromRoot h.cwd)
      (Storage.output (root.fromRoot h.cwd)) solc timeout items) :
    Succeeds h root (Storage.output root) solc timeout items ↔
      h.files.locate d .writing (Storage.output root) = .ok out := by
  have hrun : runDirectory h (some root) = .ok d :=
    runDirectory_eq_ok.2 ⟨hled.workspace, hled.directory⟩
  obtain ⟨htold, hpresent, hends, bytes, hleaves, hreport⟩ :=
    (hled.succeeds_fromRoot_iff halike).1 hsucceeds
  have hvacant := hled.vacant
  -- What is read has been put down as a file, since the process and such a run follow one path.
  have hleaving : (h.tool.analyze (h.key root)).leaving = .file bytes := by
    refine (leaving_of_readFile (by decide) (by decide) hvacant hleaves).resolve_right ?_
    rintro ⟨-, hother⟩
    exact hother fun _ _ => id
  rw [succeeds_iff hrun]
  constructor
  · rintro ⟨-, -, -, bytes', hleaves', -⟩
    rw [LeavesAt, hleaving, putDown] at hleaves'
    cases hwrite : h.files.writeFile d (Storage.output root) bytes with
    | error e =>
      rw [hwrite] at hleaves'
      exact absurd (readFile_eq_ok.1 hleaves') hvacant.status_ne_ok
    | ok t' =>
      rw [hwrite] at hleaves'
      obtain ⟨q, hq, hother, rfl⟩ := writeFile_ok hwrite
      -- The file that is read is the one that has been put down, so it stands there.
      have hroot : q ≠ [] := fun hroot => hother (hroot ▸ node?_root h.files)
      obtain ⟨rfl, -⟩ := hvacant.eq_of_readFile_insert (by decide) (by decide) hroot hleaves'
      exact hq
  · intro hthere
    have hsame : Concur (h.files.locate d .writing (Storage.output root))
        (h.files.locate h.cwd .writing (Storage.output root)) := by
      rw [hthere, hled.locate_output .writing]
      exact .ok out
    refine ⟨htold, hpresent, hends, bytes, ?_, hreport⟩
    rw [LeavesAt, hleaving] at hleaves ⊢
    rw [putDown_file_of_concur hsame]
    exact hleaves

end Led

/-- The verdict on a workspace, whose document is looked for where it is kept. -/
def verdictOn (root : Path) (solc : String) (timeout : Int) (h : Host) :
    Except Failure (Option (List Json)) :=
  verdict (analyze root (Storage.output root) solc timeout h)

theorem verdictOn_eq_some_iff (hprepare : prepare (Storage.output root) h = .ok () h₂) :
    verdictOn root solc timeout h = .ok (some items) ↔
      Succeeds h₂ root (Storage.output root) solc timeout items ∧ isMeasurable timeout = true :=
  verdict_eq_some_iff hprepare

/-- **A relative path is taken twice**, by the process and by the run that works in the workspace.
Both mean the same if the path is one from the root, or leads from the workspace to itself; then an
analysis finds what it finds under the path from the root. Where it would find something there, it
does so under the relative path exactly if the run is led to the place where its document is looked
for. -/
theorem relative_roots_are_taken_twice (hroot : root.Proper) (hcwd : Grounded h.files h.cwd)
    (hprepare : prepare (Storage.output root) h = .ok () h₂)
    (hrun : runDirectory h₂ (some root) = .ok d)
    (hout : h₂.files.locate h₂.cwd .entry (Storage.output root) = .ok out) :
    (h₂.files.locate h₂.cwd .target root = .ok d ∧
        ∀ aim, h₂.files.locate h₂.cwd aim (Storage.output root) = .ok out) ∧
      (root.isAbsolute = true → MeansTheSame h₂ root d out) ∧
      (MeansTheSame h₂ root d out ↔ h₂.files.locate d .target root = .ok d ∧
        ∃ place, h₂.files.locate d .entry (Storage.output root) = .ok place) ∧
      (root.isAbsolute = false → ".." ∉ root.parts →
        (∀ q target, h₂.files.node? q ≠ some (.link target)) →
        (MeansTheSame h₂ root d out ↔ root.parts = [])) ∧
      ∀ solc timeout items, Passable (Storage.output (root.fromRoot h.cwd)) →
        (MeansTheSame h₂ root d out →
          (verdictOn root solc timeout h = .ok (some items) ↔
            verdictOn (root.fromRoot h.cwd) solc timeout h = .ok (some items))) ∧
        (verdictOn (root.fromRoot h.cwd) solc timeout h = .ok (some items) →
          (verdictOn root solc timeout h = .ok (some items) ↔
            h₂.files.locate d .writing (Storage.output root) = .ok out)) := by
  have hled := led_of_prepare hprepare hrun hout
  refine ⟨⟨hled.workspace, hled.locate_output⟩, hled.meansTheSame_of_isAbsolute hroot,
    hled.meansTheSame_iff hroot, hled.meansTheSame_iff_here hroot, ?_⟩
  -- What is left is about what the analyses find. Both worlds are the same once the place is clear.
  intro solc timeout items hpass
  have hprepare' := prepare_fromRoot hroot hcwd hpass hprepare
  obtain ⟨_, files, rfl, -, hchanged, -⟩ := vacant_of_prepare (by decide) (by decide) hprepare
  have halike : ToldAlike { h with files := files } root :=
    ⟨hroot, hcwd.mono fun {q} => hchanged.directory q, hpass⟩
  refine ⟨fun hmeans => ?_, fun hsucceeds => ?_⟩
  · rw [verdictOn_eq_some_iff hprepare, verdictOn_eq_some_iff hprepare',
      hled.succeeds_iff_fromRoot halike hmeans]
  · obtain ⟨hreported, htime⟩ := (verdictOn_eq_some_iff hprepare').1 hsucceeds
    rw [verdictOn_eq_some_iff hprepare, hled.succeeds_iff_there halike hreported,
      and_iff_left htime]

/-- A world with two workspaces, the current directory and one below it, and an analyser that
leaves an empty list of findings. -/
def nestedWorld : Host := judgedWorld 0 [] [(["w", "v"], .directory)]

/-- To a run in the current directory the empty path means that directory. To a run in the directory
below it the path `v` means another one, so that its report is not found, as it is under `/w/v`. -/
theorem relative_roots_are_taken_twice_below :
    let cleared := fun root => (prepare (Storage.output root)).after nestedWorld
    MeansTheSame (cleared ⟨"", []⟩) ⟨"", []⟩ ["w"] ["w", ".slither", "analyzer-output.json"] ∧
      ¬MeansTheSame (cleared ⟨"", ["v"]⟩) ⟨"", ["v"]⟩ ["w", "v"]
          ["w", "v", ".slither", "analyzer-output.json"] ∧
        verdictOn ⟨"/", ["w", "v"]⟩ "" 600 nestedWorld = .ok (some []) ∧
          verdictOn ⟨"", ["v"]⟩ "" 600 nestedWorld ≠ .ok (some []) := by
  intro cleared
  have hcwd : Grounded nestedWorld.files nestedWorld.cwd :=
    .down .root ⟨by decide, by decide, by decide⟩ (by decide +kernel)
  have hempty : (⟨"", []⟩ : Path).Proper := ⟨.inl rfl, nofun⟩
  have hbelow : (⟨"", ["v"]⟩ : Path).Proper := hempty.child ⟨by decide, by decide⟩
  obtain ⟨_, hprepare⟩ := eq_ok_of_answers (show (prepare (Storage.output ⟨"", []⟩)).answers
    nestedWorld = true by decide +kernel)
  obtain ⟨_, hprepare'⟩ := eq_ok_of_answers (show (prepare (Storage.output ⟨"", ["v"]⟩)).answers
    nestedWorld = true by decide +kernel)
  have hrun : runDirectory (cleared ⟨"", []⟩) (some ⟨"", []⟩) = .ok ["w"] :=
    eq_ok_of_toOption (by decide +kernel)
  have hrun' : runDirectory (cleared ⟨"", ["v"]⟩) (some ⟨"", ["v"]⟩) = .ok ["w", "v"] :=
    eq_ok_of_toOption (by decide +kernel)
  have hout : (cleared ⟨"", []⟩).files.locate (cleared ⟨"", []⟩).cwd .entry
    (Storage.output ⟨"", []⟩) =
      .ok ["w", ".slither", "analyzer-output.json"] := eq_ok_of_toOption (by decide +kernel)
  have hout' : (cleared ⟨"", ["v"]⟩).files.locate (cleared ⟨"", ["v"]⟩).cwd .entry
      (Storage.output ⟨"", ["v"]⟩) = .ok ["w", "v", ".slither", "analyzer-output.json"] :=
    eq_ok_of_toOption (by decide +kernel)
  obtain ⟨-, -, -, hhere, -⟩ := relative_roots_are_taken_twice hempty hcwd hprepare hrun hout
  obtain ⟨-, -, -, hother, hresult⟩ :=
    relative_roots_are_taken_twice hbelow hcwd hprepare' hrun' hout'
  -- Under the path from the root the run finds its report.
  have hreports : verdictOn ⟨"/", ["w", "v"]⟩ "" 600 nestedWorld = .ok (some []) := by
    obtain ⟨_, hprepare⟩ :=
      eq_ok_of_answers (show (prepare (Storage.output ⟨"/", ["w", "v"]⟩)).answers
      nestedWorld = true by decide +kernel)
    refine (verdict_eq_some_iff hprepare).2 ⟨⟨["w", "v"], Utf8.encode "[]", ⟨by decide +kernel,
      eq_ok_of_toOption (by decide +kernel), rfl⟩, ⟨by decide, rfl⟩,
      eq_ok_of_toOption (by decide +kernel),
      "[]", .arr [], eq_ok_of_toOption (by decide +kernel), rfl, nofun, rfl⟩, by decide +kernel⟩
  have hpass : Passable (Storage.output ⟨"/", ["w", "v"]⟩) := ⟨by decide +kernel, by decide +kernel⟩
  refine ⟨(hhere rfl (by decide) (unlinked_of_entries (by decide +kernel))).2 rfl,
    fun hmeans => ?_, hreports,
    fun hgiven => ?_⟩
  · cases (hother rfl (by decide) (unlinked_of_entries (by decide +kernel))).1 hmeans
  · have hthere := ((hresult "" 600 [] hpass).2 hreports).1 hgiven
    -- Under the relative path it could only do so if the run wrote to the place that is looked at.
    have helsewhere : (((prepare (Storage.output ⟨"", ["v"]⟩)).after nestedWorld).files.locate
      ["w", "v"]
        .writing (Storage.output ⟨"", ["v"]⟩)).toOption = none := by decide +kernel
    rw [hthere] at helsewhere
    cases helsewhere

end SourceDrift.Analyzer
