/-
What an analysis is judged by.

A run has succeeded if it has left a document with findings, whatever its exit code says and
whatever it prints. The document that was there before has no part in it: it is removed, and what
is read afterwards has been put down by the run. So the verdict is the same in two worlds in which
the analyser leaves the same.

Two things are asked for beyond that. The time that a run is given has to be one that can be
measured, and its document must not be nested deeper than there is room for; otherwise there is no
verdict at all, however the run has ended.
-/
import SourceDrift.Proofs.Analyzer.Run
import SourceDrift.Proofs.FileTree.Alike
import SourceDrift.Proofs.Sync.Agreement

set_option autoImplicit false

namespace SourceDrift.Analyzer

open FileTree SourceDrift.Action

variable {h h' h₂ g : Host} {root output : Path} {solc : String} {timeout : Int}
  {args : List String} {behaviour : Behaviour} {directory : Place} {items : List Json}
  {document : Json} {e : Failure}

/-! ## Verdicts -/

/-- The findings of an analysis that has succeeded. -/
def RunResult.items? : RunResult → Option (List Json)
  | .found _ items => some items
  | .failed _ _ => none

/-- Whether an analysis has succeeded, and with which findings, or what it was stopped by. -/
def verdict : EStateM.Result Failure Host RunResult → Except Failure (Option (List Json))
  | .ok result _ => .ok result.items?
  | .error e _ => .error e

theorem verdict_eq_error {r : EStateM.Result Failure Host RunResult} :
    verdict r = .error e ↔ ∃ h', r = .error e h' := by
  cases r <;> simp [verdict]

theorem verdict_eq_some {r : EStateM.Result Failure Host RunResult} :
    verdict r = .ok (some items) ↔ ∃ code h', r = .ok (.found code items) h' := by
  cases r with
  | error e h' => simp [verdict]
  | ok result h' => cases result <;> simp [verdict, RunResult.items?]

theorem verdict_ofExcept (r : Except Failure RunResult) (h : Host) :
    verdict (Action.ofExcept r h) = r.map RunResult.items? := by
  cases r <;> rfl

/-! ## Success -/

/-- Whether the analyser can be started in a directory. -/
structure Starts (h : Host) (args : List String) (root : Path) (directory : Place) : Prop where
  told : (h.tool.command :: args).all isPassable = true
  there : runDirectory h (some root) = .ok directory
  present : startFailure h.tool = none

/-- Whether a run comes to its end before its time is up. -/
structure EndsWithin (behaviour : Behaviour) (timeout : Int) : Prop where
  positive : 0 < timeout
  ends : behaviour.hangs = false

/-- Whether a run that works in a directory leaves bytes where its document is looked for. -/
def LeavesAt (h : Host) (root output : Path) (directory : Place) (bytes : List UInt8) : Prop :=
  (putDown h.files directory output (h.tool.analyze (h.key root)).leaving).1.readFile h.cwd output =
    .ok bytes

/-- Whether bytes are a document with findings that there is room for and that does not say that the
analysis failed. -/
def IsReport (room : Nat) (bytes : List UInt8) (items : List Json) : Prop :=
  ∃ text document, Utf8.decodeText bytes = .ok text ∧ Json.read room text = .ok document ∧
    (∀ members, document = .obj members → Json.lookup "success" members ≠ some (.bool false)) ∧
    findingItems document = .ok items

/-- Whether the analyser starts, ends in time, and leaves a report. -/
def Succeeds (h : Host) (root output : Path) (solc : String) (timeout : Int)
    (items : List Json) : Prop :=
  ∃ directory bytes, Starts h (arguments root output solc) root directory ∧
    EndsWithin (h.tool.analyze (h.key root)) timeout ∧ LeavesAt h root output directory bytes ∧
    IsReport h.room bytes items

/-- A run comes to its end if it starts and ends in a time that can be measured. -/
theorem admitted_iff :
    admitted h args (some root) behaviour timeout = .ok directory ↔
      Starts h args root directory ∧ EndsWithin behaviour timeout ∧
      isMeasurable timeout = true := by
  rw [admitted_eq_ok]
  constructor
  · rintro ⟨htold, hthere, hpresent, hpositive, hmeasurable, hends⟩
    exact ⟨⟨htold, hthere, hpresent⟩, ⟨hpositive, hends⟩, hmeasurable⟩
  · rintro ⟨⟨htold, hthere, hpresent⟩, ⟨hpositive, hends⟩, hmeasurable⟩
    exact ⟨htold, hthere, hpresent, hpositive, hmeasurable, hends⟩

theorem declaredFailure_eq_none :
    declaredFailure document = none ↔
      ∀ members, document = .obj members → Json.lookup "success" members ≠ some (.bool false) := by
  unfold declaredFailure
  constructor
  · rintro hnone members rfl hfalse
    dsimp only at hnone
    rw [hfalse] at hnone
    dsimp only at hnone
    split at hnone <;> cases hnone
  · intro hsuccess
    split
    · next members =>
      split
      · next hfalse => exact absurd hfalse (hsuccess members rfl)
      · rfl
    · rfl

/-- Judging a run finds something exactly if there is a report. -/
theorem collect_eq_found_iff {given : Answer} :
    (∃ code h', collect output given h = .ok (.found code items) h') ↔
      ∃ bytes, h.files.readFile h.cwd output = .ok bytes ∧ IsReport h.room bytes items := by
  constructor
  · rintro ⟨code, h', hcollect⟩
    obtain ⟨-, -, text, document, htext, hdocument, hdeclared, hitems⟩ :=
      collect_eq_found.1 hcollect
    obtain ⟨bytes, hread, hdecode⟩ := readText_eq_ok.1 htext
    exact ⟨bytes, hread, text, document, hdecode, hdocument,
      declaredFailure_eq_none.1 hdeclared, hitems⟩
  · rintro ⟨bytes, hread, text, document, hdecode, hdocument, hsuccess, hitems⟩
    exact ⟨_, _, collect_eq_found.2 ⟨rfl, rfl, text, document,
      readText_eq_ok.2 ⟨bytes, hread, hdecode⟩,
      hdocument, declaredFailure_eq_none.2 hsuccess, hitems⟩⟩

/-- **Success is a report that the run has left.** -/
theorem verdict_eq_some_iff (hprepare : prepare output h = .ok () h₂) :
    verdict (analyze root output solc timeout h) = .ok (some items) ↔
      Succeeds h₂ root output solc timeout items ∧ isMeasurable timeout = true := by
  rw [analyze_eq, hprepare]
  dsimp only
  cases hadmitted : admitted h₂ (arguments root output solc) (some root)
      (h₂.tool.analyze (h₂.key root)) timeout with
  | error e =>
    -- A run that has not come to its end is blamed on something, and nothing is found.
    constructor
    · intro hfound
      obtain ⟨code, h', hrun⟩ := verdict_eq_some.1 hfound
      obtain ⟨reason, hreason⟩ := blamed_eq_ok (ofExcept_eq_ok.1 hrun).1
      cases hreason
    · rintro ⟨⟨directory, bytes, hstarts, hends, -, -⟩, hmeasurable⟩
      rw [admitted_iff.2 ⟨hstarts, hends, hmeasurable⟩] at hadmitted
      cases hadmitted
  | ok directory =>
    -- It has come to its end, and there is one directory that it can have worked in.
    obtain ⟨hstarts, hends, hmeasurable⟩ := admitted_iff.1 hadmitted
    refine verdict_eq_some.trans (collect_eq_found_iff.trans ⟨?_, ?_⟩)
    · rintro ⟨bytes, hread, hreport⟩
      exact ⟨⟨directory, bytes, hstarts, hends, hread, hreport⟩, hmeasurable⟩
    · rintro ⟨⟨directory', bytes, hstarts', -, hleaves, hreport⟩, -⟩
      have hsame : directory' = directory := Except.ok.inj (hstarts'.there.symm.trans hstarts.there)
      rw [hsame] at hleaves
      exact ⟨bytes, hleaves, hreport⟩

/-- **A time that cannot be measured ends an analysis** without a verdict. -/
theorem verdict_of_not_isMeasurable (hprepare : prepare output h = .ok () h₂)
    (hsucceeds : Succeeds h₂ root output solc timeout items)
    (htime : isMeasurable timeout = false) :
    verdict (analyze root output solc timeout h) = .error .endlessTimeout := by
  obtain ⟨directory, -, hstarts, hends, -, -⟩ := hsucceeds
  have hroot := root_mem_arguments root output solc
  have hadmitted : admitted h₂ (arguments root output solc) (some root)
      (h₂.tool.analyze (h₂.key root)) timeout = .error .endlessTimeout :=
    (admitted_eq_error hroot rfl).2
      (.inr ⟨hstarts.told, ⟨directory, hstarts.there⟩, hstarts.present,
      hends.positive, htime, rfl⟩)
  rw [analyze_eq, hprepare]
  dsimp only
  rw [hadmitted]
  rfl

/-! ## Two runs -/

/-- Whether there is a file at a place, or nothing. -/
def FileOrFree (t : FileTree) (place : Place) : Prop :=
  ∀ node, t.node? place = some node → ∃ bytes, node = .file bytes

/-- A file is on no way, so that the ways stay whatever becomes of it. -/
theorem FileOrFree.waysIn {t t' : FileTree} {place : Place} (hfile : FileOrFree t place)
    (hrest : ∀ q, q ≠ place → t'.node? q = t.node? q) : WaysIn t t' := by
  refine .of_agree hrest (fun hnode => ?_) (fun target hnode => ?_)
  · obtain ⟨bytes, hbytes⟩ := hfile _ hnode
    cases hbytes
  · obtain ⟨bytes, hbytes⟩ := hfile _ hnode
    cases hbytes

/-- Whether two worlds differ, as far as an analysis goes, in nothing but the exit code of the run,
what it prints, and the file, if there is one, that is in the place of its document before. -/
structure SameRun (root output : Path) (h g : Host) : Prop where
  cwd : g.cwd = h.cwd
  room : g.room = h.room
  command : g.tool.command = h.tool.command
  presence : g.tool.presence = h.tool.presence
  leaving : (g.tool.analyze (g.key root)).leaving = (h.tool.analyze (h.key root)).leaving
  hangs : (g.tool.analyze (g.key root)).hangs = (h.tool.analyze (h.key root)).hangs
  files : g.files = h.files ∨ ∃ out, h.files.locate h.cwd .entry output = .ok out ∧
    FileOrFree h.files out ∧ FileOrFree g.files out ∧ ∀ q, q ≠ out →
    g.files.node? q = h.files.node? q

/-- Clearing a place in a directory that is there takes away the file, and nothing else. -/
theorem prepare_of_fileOrFree {out : Place} (hcwd : Grounded h.files h.cwd)
    (hdirectory : h.files.isDirectory? h.cwd output.parent = .ok true)
    (hout : h.files.locate h.cwd .entry output = .ok out) (hfile : FileOrFree h.files out) :
    ∃ files, prepare output h = .ok () { h with files := files } ∧ files.node? out = none ∧
      ∀ q, q ≠ out → files.node? q = h.files.node? q := by
  have hmade := makeDirectories_of_isDirectory output.parent.parts.length hcwd hdirectory
  cases hnode : h.files.node? out with
  | none =>
    have hunlink : h.files.unlinkIfPresent h.cwd output = .ok h.files := by
      rw [unlinkIfPresent_eq hout, hnode]
    exact ⟨h.files, prepare_eq_ok.2 ⟨_, _, hmade, hunlink, rfl⟩, hnode, fun _ _ => rfl⟩
  | some node =>
    obtain ⟨bytes, rfl⟩ := hfile _ hnode
    have hunlink : h.files.unlinkIfPresent h.cwd output = .ok (h.files.erase out) := by
      rw [unlinkIfPresent_eq hout, hnode]
    have hroot : out ≠ [] := by
      rintro rfl
      cases hnode
    exact ⟨_, prepare_eq_ok.2 ⟨_, _, hmade, hunlink, rfl⟩,
      by rw [node?_erase _ _ _ hroot, if_pos rfl],
      fun _ => node?_erase_of_ne⟩

/-- **Once the place of the document is clear the worlds cannot be told apart.** -/
theorem SameRun.prepare (hsame : SameRun root output h g) (houtput : output.Proper)
    (hcwd : Grounded h.files h.cwd) (hprepare : prepare output h = .ok () h₂) :
    ∃ files, Analyzer.prepare output g = .ok () { g with files := files } ∧
    Alike h₂.files files := by
  rcases hsame.files with hfiles | ⟨out, hout, hfile, hfile', hrest⟩
  · obtain ⟨made, files, hmade, hremoved, rfl⟩ := prepare_eq_ok.1 hprepare
    rw [← hfiles, ← hsame.cwd] at hmade
    rw [← hsame.cwd] at hremoved
    exact ⟨files, prepare_eq_ok.2 ⟨made, files, hmade, hremoved, rfl⟩, .refl files⟩
  · obtain ⟨above, name, rfl, hidle, hup⟩ := exists_child_of_prepare houtput hcwd hprepare
    obtain ⟨hpass, hname, n, d, hn, hleads, rfl⟩ := (locate_entry_child hidle hup).1 hout
    -- The directory has been made, and so can be handed to the file system, in whichever world.
    have hpassAbove : Passable above := by
      obtain ⟨made, files, hmade, -, -⟩ := prepare_eq_ok.1 hprepare
      rw [Path.parent_child] at hmade
      exact (leads_of_makeDirectories hcwd hmade).1
    -- In both worlds the same directory is there already.
    have hways : WaysIn h.files g.files := hfile.waysIn hrest
    have hcwd' : Grounded g.files g.cwd := by
      rw [hsame.cwd]
      exact hcwd.mono hways.directory
    have hdirectory : h.files.isDirectory? h.cwd (above.child name).parent = .ok true := by
      rw [Path.parent_child]
      exact (isDirectory_iff hcwd).2 ⟨hpassAbove, n, d, hn, hleads⟩
    have hdirectory' : g.files.isDirectory? g.cwd (above.child name).parent = .ok true := by
      rw [Path.parent_child]
      refine (isDirectory_iff hcwd').2 ⟨hpassAbove, n, d, hn, ?_⟩
      rw [hsame.cwd]
      exact hleads.mono hways
    have hout' : g.files.locate g.cwd .entry (above.child name) = .ok (d ++ [name]) := by
      rw [hsame.cwd]
      exact (locate_entry_child hidle hup).2 ⟨hpass, hname, n, d, hn, hleads.mono hways, rfl⟩
    -- What made the difference is gone in both.
    obtain ⟨files, hrun, hgone, hkept⟩ := prepare_of_fileOrFree hcwd hdirectory hout hfile
    obtain ⟨files', hrun', hgone', hkept'⟩ := prepare_of_fileOrFree hcwd' hdirectory' hout' hfile'
    rw [hrun] at hprepare
    cases hprepare
    refine ⟨files', hrun', fun q => ?_⟩
    by_cases hq : q = d ++ [name]
    · rw [hq, hgone, hgone']
    · rw [hkept' q hq, hkept q hq, hrest q hq]

/-- What a run puts down is the same in trees that cannot be told apart. -/
theorem alike_putDown {t t' : FileTree} (halike : Alike t t') (directory : Place) (p : Path)
    (leaving : Leaving) :
    Alike (putDown t directory p leaving).1 (putDown t' directory p leaving).1 := by
  unfold Analyzer.putDown
  cases leaving with
  | nothing => exact halike
  | file bytes =>
    dsimp only
    rcases halike.writeFile directory p bytes with
      ⟨e, hwrite, hwrite'⟩ | ⟨s, s', hwrite, hwrite', hwritten⟩
    · rw [hwrite, hwrite']
      exact halike
    · rw [hwrite, hwrite']
      exact hwritten
  | directory =>
    dsimp only
    rcases halike.makeDirectory directory p with ⟨e, hmake, hmake'⟩ | ⟨s, s', hmake, hmake', hmade⟩
    · rw [hmake, hmake']
      exact halike
    · rw [hmake, hmake']
      exact hmade

theorem items?_unreadable (given given' : Answer) (e : Failure) :
    (unreadable given e).map RunResult.items? = (unreadable given' e).map RunResult.items? := by
  unfold unreadable
  cases e.isOfInput <;> rfl

/-- What a run answers has no part in the verdict. -/
theorem items?_judged (room : Nat) (given given' : Answer) (found : Except Failure Bool)
    (text : Except Failure String) :
    (judged room given found text).map RunResult.items? =
      (judged room given' found text).map RunResult.items? := by
  rcases found with e | _ | _
  · rfl
  · rfl
  · rcases text with e | text
    · exact items?_unreadable given given' e
    · simp only [judged, readOutput, Except.bind]
      cases Json.read room text with
      | error e => exact items?_unreadable given given' _
      | ok document =>
        dsimp only
        rcases judge document with e | ⟨_ | reason, items⟩
        · exact items?_unreadable given given' e
        · rfl
        · rfl

theorem SameRun.runDirectory_eq (hsame : SameRun root output h g) {files files' : FileTree}
    (halike : Alike files files') :
    runDirectory { g with files := files' } (some root) =
    runDirectory { h with files := files } (some root) := by
  simp only [runDirectory, hsame.cwd, halike.locate_eq, halike _]

theorem SameRun.startFailure_eq (hsame : SameRun root output h g) :
    startFailure g.tool = startFailure h.tool := by
  rw [startFailure, startFailure, hsame.presence, hsame.command]

theorem SameRun.admitted_eq (hsame : SameRun root output h g) {files files' : FileTree}
    (halike : Alike files files') (args : List String) (timeout : Int) :
    admitted { g with files := files' } args (some root) (g.tool.analyze (g.key root)) timeout =
      admitted { h with files := files } args (some root)
      (h.tool.analyze (h.key root)) timeout := by
  simp only [admitted, hsame.runDirectory_eq halike, hsame.startFailure_eq, hsame.command,
    hsame.hangs]

/-- **Two runs that leave the same are judged the same.** -/
theorem SameRun.verdict_eq (hsame : SameRun root output h g) (houtput : output.Proper)
    (hcwd : Grounded h.files h.cwd) (hprepare : Analyzer.prepare output h = .ok () h₂) :
    verdict (analyze root output solc timeout g) =
    verdict (analyze root output solc timeout h) := by
  obtain ⟨files', hprepare', halike⟩ := hsame.prepare houtput hcwd hprepare
  obtain ⟨made, files, -, -, rfl⟩ := prepare_eq_ok.1 hprepare
  rw [analyze_eq, analyze_eq, hprepare, hprepare']
  simp only [Host.key_withFiles]
  rw [hsame.admitted_eq halike]
  cases admitted { h with files := files } (arguments root output solc) (some root)
      (h.tool.analyze (h.key root)) timeout with
  | error e => rw [verdict_ofExcept, verdict_ofExcept]
  | ok directory =>
    -- The same is put down in both, and only that is read to judge a run.
    have hput := alike_putDown halike directory output (h.tool.analyze (h.key root)).leaving
    dsimp only
    rw [collect_eq, collect_eq, verdict_ofExcept, verdict_ofExcept]
    rw [room_ranIn, room_ranIn, Host.room_withFiles, Host.room_withFiles, hsame.room]
    unfold ranIn
    dsimp only
    rw [hsame.cwd, hsame.leaving, hput.exists?_eq, hput.readText_eq]
    exact items?_judged ..

/-- **An analysis is judged by what its run has left, and by nothing else**, once the place of the
document has been cleared: it succeeds exactly if the analyser starts, ends in time and leaves a
report. It ends without a verdict exactly if it is stuck; a run that would succeed is so if its
time cannot be measured, and a run that has come to its end is so if its document is nested too
deep. What is read there is what this run has put down, unless the run takes the path for another
place and makes a directory. -/
theorem judged_by_what_is_left (houtput : output.Proper) (hcwd : Grounded h.files h.cwd)
    (hprepare : prepare output h = .ok () h₂) :
    (∀ items, verdict (analyze root output solc timeout h) = .ok (some items) ↔
        Succeeds h₂ root output solc timeout items ∧ isMeasurable timeout = true) ∧
      (∀ e, verdict (analyze root output solc timeout h) = .error e ↔
        Stuck root output solc timeout h₂ e) ∧
      (∀ items, Succeeds h₂ root output solc timeout items → isMeasurable timeout = false →
        verdict (analyze root output solc timeout h) = .error .endlessTimeout) ∧
      (∀ directory bytes text error, Starts h₂ (arguments root output solc) root directory →
        EndsWithin (h₂.tool.analyze (h₂.key root)) timeout → isMeasurable timeout = true →
        LeavesAt h₂ root output directory bytes → Utf8.decodeText bytes = .ok text →
        Json.read h₂.room text = .error error → error.problem.isDepth = true →
        verdict (analyze root output solc timeout h) = .error (.unreadable error)) ∧
      (∀ directory bytes, runDirectory h₂ (some root) = .ok directory →
        LeavesAt h₂ root output directory bytes →
        (h₂.tool.analyze (h₂.key root)).leaving = .file bytes ∨
          (h₂.tool.analyze (h₂.key root)).leaving = .directory ∧ ¬SamePlaces h₂ root output) ∧
      ∀ g, SameRun root output h g →
        verdict (analyze root output solc timeout g) =
        verdict (analyze root output solc timeout h) := by
  have hstuck : ∀ e, verdict (analyze root output solc timeout h) = .error e ↔
      Stuck root output solc timeout h₂ e := fun e =>
    verdict_eq_error.trans (analyze_eq_error.trans (breaks_of_prepare hprepare))
  refine ⟨fun items => verdict_eq_some_iff hprepare, hstuck,
    fun items hsucceeds => verdict_of_not_isMeasurable hprepare hsucceeds, ?_, ?_,
    fun g hsame => hsame.verdict_eq houtput hcwd hprepare⟩
  · intro directory bytes text error hstarts hends hmeasurable hleaves hdecode hread hdepth
    exact (hstuck _).2 (.nesting (admitted_iff.2 ⟨hstarts, hends, hmeasurable⟩)
      (readText_eq_ok.2 ⟨bytes, hleaves, hdecode⟩) hread hdepth)
  · intro directory bytes hdirectory hleaves
    obtain ⟨above, name, rfl, hidle, hup⟩ := exists_child_of_prepare houtput hcwd hprepare
    obtain ⟨out, files, rfl, -, -, hvacant⟩ := vacant_of_prepare hidle hup hprepare
    refine (leaving_of_readFile hidle hup hvacant hleaves).imp_right
      (And.imp_right fun hother hplaces => ?_)
    exact hother fun aim place => hplaces directory aim place hdirectory

/-- A world with an analyser that leaves an empty list of findings. -/
def judgedWorld (exitCode : Int) (stderr : List UInt8) (before : List (Place × Node)) : Host :=
  { Sync.worldOf ((["w", ".slither"], .directory) :: before) with
    tool := { Tool.missing with
      presence := .executable
      analyze := fun _ => { Behaviour.silent with
        stderr := stderr
        exitCode := exitCode
        leaving := .file (Utf8.encode "[]") } } }

/-- A world in which there is the document of an earlier run, and the run at hand exits with 255. -/
def staleWorld : Host :=
  judgedWorld 255 [33] [(["w", ".slither", "analyzer-output.json"], .file (Utf8.encode "[1]"))]

/-- A number of seconds that no double holds. -/
def endlessTime : Int := .ofNat (Nat.pow 10 309)

/-- A document from before and an exit code make no difference; a time that cannot be measured
does. -/
theorem judged_by_what_is_left_beside_stale :
    let root : Path := ⟨"", []⟩
    let output := Storage.output root
    verdict (analyze root output "" 600 staleWorld) = .ok (some []) ∧
      verdict (analyze root output "" 600 (judgedWorld 0 [] [])) = .ok (some []) ∧
      verdict (analyze root output "" endlessTime staleWorld) = .error .endlessTimeout := by
  intro root output
  have houtput : output.Proper :=
    (Path.Proper.child ⟨.inl rfl, fun _ hmem => absurd hmem List.not_mem_nil⟩
      ⟨by decide, by decide⟩).child ⟨by decide, by decide⟩
  have hcwd : Grounded staleWorld.files staleWorld.cwd :=
    .down .root ⟨by decide, by decide, by decide⟩ (by decide +kernel)
  obtain ⟨u, hprepare⟩ :=
    eq_ok_of_answers (show (prepare output).answers staleWorld = true by decide +kernel)
  have hsucceeds : ∀ timeout : Int, 0 < timeout →
      Succeeds ((prepare output).after staleWorld) root output "" timeout [] := by
    intro timeout hpositive
    refine ⟨["w"], Utf8.encode "[]",
      ⟨by decide +kernel, eq_ok_of_toOption (by decide +kernel), rfl⟩,
      ⟨hpositive, rfl⟩, eq_ok_of_toOption (by decide +kernel), "[]", .arr [],
      eq_ok_of_toOption (by decide +kernel), rfl, by rintro members ⟨⟩, rfl⟩
  have hsame : SameRun root output staleWorld (judgedWorld 0 [] []) := by
    refine ⟨rfl, rfl, rfl, rfl, rfl, rfl, .inr ⟨["w", ".slither", "analyzer-output.json"],
      eq_ok_of_toOption (by decide +kernel), ?_, ?_, fun q hq => ?_⟩⟩
    · intro node hnode
      have hfile : staleWorld.files.node? ["w", ".slither", "analyzer-output.json"] =
          some (.file (Utf8.encode "[1]")) := by decide +kernel
      exact ⟨_, Option.some.inj (hnode.symm.trans hfile)⟩
    · intro node hnode
      have hfree : (judgedWorld 0 [] []).files.node? ["w", ".slither", "analyzer-output.json"] =
          none := by
        decide +kernel
      cases hnode.symm.trans hfree
    · have herased : (judgedWorld 0 [] []).files =
          staleWorld.files.erase ["w", ".slither", "analyzer-output.json"] :=
        congrArg FileTree.mk (by decide +kernel)
      rw [herased, node?_erase_of_ne hq]
  obtain ⟨hfound, -, -, -, -, htwo⟩ := judged_by_what_is_left houtput hcwd hprepare
  obtain ⟨-, -, hendless, -⟩ := judged_by_what_is_left houtput hcwd hprepare
  have hstale := (hfound []).2 ⟨hsucceeds 600 (by decide), by decide +kernel⟩
  exact ⟨hstale, (htwo _ hsame).trans hstale, hendless [] (hsucceeds _ (by decide +kernel))
    (by decide +kernel)⟩

end SourceDrift.Analyzer
