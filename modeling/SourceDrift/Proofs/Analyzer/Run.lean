/-
What a run of the analyser leaves.

Before a run the place of its document is cleared, so that whatever is read there afterwards has
been put down by the run. All other places stay as they are, but for directories that are made
on the way. Both need that the analyser, which works in another directory than the process that
starts it, takes the path that it is told for the same place.

A run that is stopped before its end has put something down by then, or nothing; that is the only
trace it leaves, because it is not judged by it.
-/
import SourceDrift.Analyzer.Run
import SourceDrift.Proofs.FileTree.Removal
import SourceDrift.Proofs.Host.Contents

set_option autoImplicit false

namespace SourceDrift.Analyzer

open FileTree SourceDrift.Action

variable {h h' : Host} {root output p : Path} {name solc : String} {timeout : Int}
  {args : List String} {directory : Option Path} {behaviour : Behaviour} {given : Answer}
  {result : RunResult} {e : Failure} {u : Unit}

/-! ## Clearing the place of the document -/

/-- Makes the directory of a run's document, and removes the document that is there. -/
def prepare (output : Path) : Action Unit := do
  Host.makeDirectories output.parent
  Host.unlinkIfPresent output

theorem prepare_eq_ok :
    prepare output h = .ok u h' ↔ ∃ made files,
      makeDirectories output.parent.parts.length h.files h.cwd output.parent = (.ok (), made) ∧
        made.unlinkIfPresent h.cwd output = .ok files ∧ h' = { h with files := files } := by
  constructor
  · intro hprepare
    obtain ⟨_, _, hmake, hunlink⟩ := bind_eq_ok.1 hprepare
    obtain ⟨made, hmade, rfl⟩ := Host.makeDirectories_eq_ok.1 hmake
    obtain ⟨files, hremoved, rfl⟩ := change_eq_ok.1 hunlink
    exact ⟨made, files, hmade, hremoved, rfl⟩
  · rintro ⟨made, files, hmade, hremoved, rfl⟩
    exact bind_eq_ok.2 ⟨(), _, Host.makeDirectories_eq_ok.2 ⟨made, hmade, rfl⟩,
      change_eq_ok.2 ⟨files, hremoved, rfl⟩⟩

/-- A path whose place can be cleared ends in a name, because a directory is not removed. -/
theorem exists_child_of_prepare (houtput : output.Proper) (hcwd : Grounded h.files h.cwd)
    (hprepare : prepare output h = .ok u h') :
    ∃ above name, output = Path.child above name ∧ isIdle name = false ∧ name ≠ ".." := by
  obtain ⟨made, files, hmade, hremoved, -⟩ := prepare_eq_ok.1 hprepare
  have hmadeCwd : Grounded made h.cwd := hcwd.of_makeDirectories hmade
  have hpass := passable_of_unlinkIfPresent hremoved
  -- Clearing fails where the path leads to a directory, as it does if its last part is no name.
  have hother : ∀ d, made.walk .entry 40 (startOf h.cwd output) output.parts = .ok d →
      made.node? d ≠ some .directory := by
    intro d hwalk hdirectory
    rw [unlinkIfPresent_eq (locate_eq_ok.2 ⟨hpass, hwalk⟩), hdirectory] at hremoved
    cases hremoved
  obtain ⟨-, n, d, hn, hleads⟩ := leads_of_makeDirectories hcwd hmade
  have hd : Grounded made d := hleads.grounded (hmadeCwd.startOf output.parent)
  have hstart : startOf h.cwd output.parent = startOf h.cwd output := rfl
  rcases List.eq_nil_or_concat output.parts with hparts | ⟨above, last, hparts⟩
  · refine absurd (hmadeCwd.startOf output).node (hother _ ?_)
    rw [hparts, walk_nil]
  · rw [List.concat_eq_append] at hparts
    have habove : output.parent.parts = above := by rw [Path.parent, hparts, List.dropLast_concat]
    refine ⟨⟨output.anchor, above⟩, last, ?_,
      (houtput.parts last (by rw [hparts]; exact List.mem_concat_self)).notIdle, ?_⟩
    · rw [Path.child, ← hparts]
    · rintro rfl
      refine absurd hd.dropLast.node (hother _ ?_)
      rw [habove, hstart] at hleads
      rw [hparts, walk_append hleads hn (.inr ⟨List.cons_ne_nil _ _, by decide⟩), walk_up, walk_nil]

/-- **Afterwards the document's place is vacant**, and only this place and new directories are
not as they were. -/
theorem vacant_of_prepare (hidle : isIdle name = false) (hup : name ≠ "..")
    (hprepare : prepare (p.child name) h = .ok u h') :
    ∃ out files, h' = { h with files := files } ∧ out.getLast? = some name ∧
      ChangedIn (· = out) h.files files ∧ Vacant files h.cwd (p.child name) out := by
  obtain ⟨made, files, hmade, hremoved, rfl⟩ := prepare_eq_ok.1 hprepare
  obtain ⟨out, hname, hchanged, hvacant⟩ := vacant_of_unlinkIfPresent hidle hup hremoved
  have hdirectories :=
    ChangedIn.makeDirectories (· = out) (p.child name).parent.parts.length h.files h.cwd
    (p.child name).parent
  rw [hmade] at hdirectories
  exact ⟨out, files, rfl, hname, hdirectories.trans hchanged, hvacant⟩

/-! ## Starting the program -/

/-- The directory in which a program runs to its end, or why it does not. -/
def admitted (h : Host) (args : List String) (directory : Option Path) (behaviour : Behaviour)
    (timeout : Int) : Except Failure Place :=
  if (h.tool.command :: args).all isPassable then
    match runDirectory h directory, startFailure h.tool with
    | .error e, _ => .error e
    | .ok _, some e => .error e
    | .ok place, none =>
      if timeout ≤ 0 then .error .timedOut
      else if !isMeasurable timeout then .error .endlessTimeout
      else if behaviour.hangs then .error .timedOut
      else .ok place
  else .error .embeddedNul

/-- The world after a run that has not come to its end: with what it had put down by then, if it
was started at all. -/
def cutShort (h : Host) (args : List String) (directory output : Option Path)
    (behaviour : Behaviour) : Host :=
  if (h.tool.command :: args).all isPassable then
    match runDirectory h directory, startFailure h.tool with
    | .ok place, none => { h with files := (leave h.files place output behaviour.stopped).1 }
    | _, _ => h
  else h

/-- **A program that runs to its end puts down what it leaves**, if it is told where, and one that
does not what it has by then. -/
theorem start_eq (args : List String) (directory output : Option Path) (behaviour : Behaviour)
    (timeout : Int) (h : Host) :
    start args directory output behaviour timeout h =
      match admitted h args directory behaviour timeout with
      | .error e => .error e (cutShort h args directory output behaviour)
      | .ok place => .ok (behaviour.answer (leave h.files place output behaviour.leaving).2)
          { h with files := (leave h.files place output behaviour.leaving).1,
                   calls := h.calls ++ [args] } := by
  unfold start admitted cutShort
  by_cases hargs : (h.tool.command :: args).all isPassable = true
  · rw [if_neg (by rw [hargs]; decide), if_pos hargs, if_pos hargs]
    cases runDirectory h directory with
    | error e => rfl
    | ok place =>
      cases startFailure h.tool with
      | some e => rfl
      | none =>
        dsimp only
        split
        · rfl
        · split
          · rfl
          · split
            · rfl
            · rfl
  · rw [if_pos (by rw [Bool.eq_false_iff.2 hargs]; rfl), if_neg hargs, if_neg hargs]

/-- A run that has not come to its end has done nothing, or has put something down in its
directory. -/
theorem cutShort_cases (h : Host) (args : List String) (directory output : Option Path)
    (behaviour : Behaviour) :
    cutShort h args directory output behaviour = h ∨ ∃ place, runDirectory h directory = .ok place ∧
      cutShort h args directory output behaviour =
        { h with files := (leave h.files place output behaviour.stopped).1 } := by
  unfold cutShort
  split
  · split
    · next place hplace _ => exact .inr ⟨place, hplace, rfl⟩
    · exact .inl rfl
  · exact .inl rfl

/-- **When a program runs to its end**: if it can be told its arguments, its directory is there, it
can be started, and it ends in the time that it is given. -/
theorem admitted_eq_ok {place : Place} :
    admitted h args directory behaviour timeout = .ok place ↔
      (h.tool.command :: args).all isPassable = true ∧ runDirectory h directory = .ok place ∧
        startFailure h.tool = none ∧ 0 < timeout ∧ isMeasurable timeout = true ∧
        behaviour.hangs = false := by
  unfold admitted
  by_cases hargs : (h.tool.command :: args).all isPassable = true
  · rw [if_pos hargs, and_iff_right hargs]
    cases runDirectory h directory with
    | error e => simp
    | ok found =>
      cases startFailure h.tool with
      | some e => simp
      | none =>
        by_cases htimeout : timeout ≤ 0
        · simp [htimeout, Int.not_lt_of_ge htimeout]
        · have hpositive : 0 < timeout := Int.lt_of_not_ge htimeout
          cases isMeasurable timeout <;> cases behaviour.hangs <;> simp [htimeout, hpositive]
  · rw [if_neg hargs]
    simp [hargs]

/-- A path that the file system does not take is no argument either. -/
theorem not_isPassable_of_hasNul (hnul : p.hasNul = true) : isPassable p.toString = false := by
  obtain ⟨part, hpart, hchar⟩ := List.any_eq_true.1 hnul
  rw [List.contains_iff_mem] at hchar
  rw [isPassable, Bool.not_eq_false', List.contains_iff_mem]
  exact Path.mem_toString hpart hchar

/-- A path that the file system takes can be told to a program. -/
theorem isPassable_of_passable (hanchor : p.anchor = "" ∨ p.anchor = "/" ∨ p.anchor = "//")
    (hpass : Passable p) : isPassable p.toString = true := by
  rw [isPassable, Bool.not_eq_true', ← Bool.not_eq_true, List.contains_iff_mem]
  intro hnul
  rcases Path.mem_of_mem_toString hanchor hnul with hdot | hslash | ⟨part, hpart, hc⟩
  · cases hdot
  · cases hslash
  · have hnone := hpass.noNul
    have hsome : p.hasNul = true := List.any_eq_true.2 ⟨part, hpart, List.contains_iff_mem.2 hc⟩
    rw [hnone] at hsome
    cases hsome

/-- The analyser is told the workspace. -/
theorem root_mem_arguments (root output : Path) (solc : String) :
    root.toString ∈ arguments root output solc :=
  List.mem_append_left _ (List.mem_cons_self ..)

theorem runDirectory_eq_ok {d : Place} :
    runDirectory h (some p) = .ok d ↔
      h.files.locate h.cwd .target p = .ok d ∧ h.files.node? d = some .directory := by
  unfold runDirectory
  dsimp only
  cases h.files.locate h.cwd .target p with
  | error e =>
    constructor
    · intro hrun
      cases hrun
    · rintro ⟨hplace, -⟩
      cases hplace
  | ok place =>
    dsimp only
    constructor
    · intro hrun
      cases hnode : h.files.node? place with
      | none =>
        rw [hnode] at hrun
        cases hrun
      | some node =>
        rw [hnode] at hrun
        cases node with
        | directory =>
          cases hrun
          exact ⟨rfl, hnode⟩
        | file _ | link _ => cases hrun
    · rintro ⟨hplace, hnode⟩
      cases hplace
      rw [hnode]

theorem runDirectory_eq_error (hrun : runDirectory h (some p) = .error e) :
    e.isSystem = true ∨ p.hasNul = true := by
  unfold runDirectory at hrun
  dsimp only at hrun
  cases hlocate : h.files.locate h.cwd .target p with
  | error fault =>
    rw [hlocate] at hrun
    cases hrun
    -- A path with a null character is the one that the system is not asked about.
    unfold locate at hlocate
    by_cases hnul : p.hasNul = true
    · exact .inr hnul
    · rw [if_neg hnul] at hlocate
      split at hlocate
      · cases hlocate
        exact .inl rfl
      · split at hlocate
        · cases hlocate
        · cases hlocate
          exact .inl rfl
  | ok place =>
    rw [hlocate] at hrun
    dsimp only at hrun
    split at hrun
    · cases hrun
      exact .inl rfl
    · cases hrun
    · cases hrun
      exact .inl rfl

theorem isSystem_of_startFailure {tool : Tool} (hstart : startFailure tool = some e) :
    e.isSystem = true := by
  unfold startFailure at hstart
  split at hstart
  · cases hstart
    rfl
  · cases hstart
    rfl
  · cases hstart

/-- **A run that is neither refused by the system nor out of time**, and has not come to its end,
was given an argument that cannot be passed on, or a time that cannot be measured. -/
theorem admitted_eq_error (hroot : root.toString ∈ args) (hsystem : e.isSystem = false) :
    admitted h args (some root) behaviour timeout = .error e ↔
      ((h.tool.command :: args).all isPassable = false ∧ e = .embeddedNul) ∨
        ((h.tool.command :: args).all isPassable = true ∧
          (∃ place, runDirectory h (some root) = .ok place) ∧ startFailure h.tool = none ∧
          0 < timeout ∧ isMeasurable timeout = false ∧ e = .endlessTimeout) := by
  -- What the system refuses, and running out of time, is not asked about.
  have hother : ∀ fault : Failure, fault.isSystem = true → fault ≠ e := by
    rintro fault hfault rfl
    rw [hsystem] at hfault
    cases hfault
  unfold admitted
  by_cases hargs : (h.tool.command :: args).all isPassable = true
  · have hnul : root.hasNul ≠ true := by
      intro hnul
      have hpassable := List.all_eq_true.1 hargs _ (List.mem_cons_of_mem _ hroot)
      rw [not_isPassable_of_hasNul hnul] at hpassable
      cases hpassable
    rw [if_pos hargs, hargs]
    cases hdirectory : runDirectory h (some root) with
    | error fault => simp [hother fault ((runDirectory_eq_error hdirectory).resolve_right hnul)]
    | ok place =>
      cases hstart : startFailure h.tool with
      | some fault => simp [hother fault (isSystem_of_startFailure hstart)]
      | none =>
        have htimedOut : Failure.timedOut ≠ e := hother .timedOut rfl
        by_cases htimeout : timeout ≤ 0
        · simp [htimeout, htimedOut, Int.not_lt_of_ge htimeout]
        · have hpositive : 0 < timeout := Int.lt_of_not_ge htimeout
          cases isMeasurable timeout <;> cases behaviour.hangs <;>
            simp [htimeout, hpositive, htimedOut.symm, eq_comm]
  · rw [if_neg hargs, Bool.eq_false_iff.2 hargs]
    constructor
    · intro herror
      cases herror
      exact .inl ⟨rfl, rfl⟩
    · rintro (⟨-, rfl⟩ | ⟨hfalse, -⟩)
      · rfl
      · cases hfalse

/-- Whether a path leads from the directory that a run works in only to what it leads to from the
directory of the process that starts the run. -/
def SamePlaces (h : Host) (root output : Path) : Prop :=
  ∀ directory aim place, runDirectory h (some root) = .ok directory →
    h.files.locate directory aim output = .ok place → h.files.locate h.cwd aim output = .ok place

/-- A path from the root leads to one place from everywhere. -/
theorem locate_of_isAbsolute {t : FileTree} (habsolute : p.isAbsolute = true) (aim : Aim)
    (here there : Place) : t.locate here aim p = t.locate there aim p := by
  rw [locate, locate, habsolute, if_pos rfl, if_pos rfl]

theorem samePlaces_of_cwd
    (hcwd : ∀ directory, runDirectory h (some root) = .ok directory → directory = h.cwd) :
    SamePlaces h root output := by
  intro directory aim place hdirectory hlocate
  rw [hcwd directory hdirectory] at hlocate
  exact hlocate

/-- **What a run puts down stands in the place of its document**, if anything does. -/
theorem putDown_cases {t : FileTree} {cwd directory out : Place} (hidle : isIdle name = false)
    (hup : name ≠ "..") (hvacant : Vacant t cwd (p.child name) out)
    (hsame : ∀ aim place, t.locate directory aim (p.child name) = .ok place →
      t.locate cwd aim (p.child name) = .ok place) (leaving : Leaving) :
    (putDown t directory (p.child name) leaving).1 = t ∨
      ∃ node, (putDown t directory (p.child name) leaving).1 = t.insert out node ∧
        t.node? out = none ∧
        (t.insert out node).status cwd (p.child name) = .ok node ∧
        (node = .directory ∨ ∃ bytes, node = .file bytes ∧ leaving = .file bytes) := by
  -- Whatever is made is made where the path leads the run, and that is the vacant place.
  cases leaving with
  | nothing => exact .inl rfl
  | file bytes =>
    rw [putDown]
    cases hwrite : t.writeFile directory (p.child name) bytes with
    | error e => exact .inl rfl
    | ok t' =>
      obtain ⟨place, hlocate, -, rfl⟩ := writeFile_ok hwrite
      have hplace := hsame _ _ hlocate
      obtain ⟨rfl, hfree⟩ := hvacant _ _ hplace
      exact .inr ⟨.file bytes, rfl, hfree,
        hvacant.status_insert hidle hup hplace (by rintro target ⟨⟩),
        .inr ⟨bytes, rfl, rfl⟩⟩
  | directory =>
    rw [putDown]
    cases hmake : t.makeDirectory directory (p.child name) with
    | error e => exact .inl rfl
    | ok t' =>
      obtain ⟨place, hlocate, -, rfl⟩ := makeDirectory_ok hmake
      have hplace := hsame _ _ hlocate
      obtain ⟨rfl, hfree⟩ := hvacant _ _ hplace
      exact .inr ⟨.directory, rfl, hfree,
        hvacant.status_insert hidle hup hplace (by rintro target ⟨⟩),
        .inl rfl⟩

/-- A run changes the place of its document only. -/
theorem putDown_changed {t : FileTree} {cwd directory out : Place} (hidle : isIdle name = false)
    (hup : name ≠ "..") (hvacant : Vacant t cwd (p.child name) out)
    (hsame : ∀ aim place, t.locate directory aim (p.child name) = .ok place →
      t.locate cwd aim (p.child name) = .ok place) (leaving : Leaving) :
    ChangedIn (· = out) t (putDown t directory (p.child name) leaving).1 := by
  rcases putDown_cases hidle hup hvacant hsame leaving with hput | ⟨node, hput, hfree, -, hnode⟩
  · rw [hput]
    exact .refl _ t
  · have hunlinked : ∀ target, node ≠ .link target := by
      rintro target rfl
      rcases hnode with hnode | ⟨_, hnode, -⟩ <;> cases hnode
    rw [hput]
    exact .insert (P := (· = out)) rfl (by rw [hfree]; rintro ⟨⟩) hunlinked

/-- **What is read in the place of a run's document has been left by the run**, unless the run has
made a directory there that it takes for another place. -/
theorem leaving_of_readFile {t : FileTree} {cwd directory out : Place} {bytes : List UInt8}
    (hidle : isIdle name = false) (hup : name ≠ "..") (hvacant : Vacant t cwd (p.child name) out)
    {leaving : Leaving}
    (hread : (putDown t directory (p.child name) leaving).1.readFile cwd (p.child name) =
      .ok bytes) :
    leaving = .file bytes ∨ leaving = .directory ∧
      ¬∀ aim place, t.locate directory aim (p.child name) = .ok place →
        t.locate cwd aim (p.child name) = .ok place := by
  cases leaving with
  | nothing => exact absurd (readFile_eq_ok.1 hread) hvacant.status_ne_ok
  | file written =>
    rw [putDown] at hread
    cases hwrite : t.writeFile directory (p.child name) written with
    | error e =>
      rw [hwrite] at hread
      exact absurd (readFile_eq_ok.1 hread) hvacant.status_ne_ok
    | ok t' =>
      rw [hwrite] at hread
      obtain ⟨q, -, hother, rfl⟩ := writeFile_ok hwrite
      have hroot : q ≠ [] := fun hroot => hother (hroot ▸ node?_root t)
      rw [(hvacant.eq_of_readFile_insert hidle hup hroot hread).2]
      exact .inl rfl
  | directory =>
    refine .inr ⟨rfl, fun hsame => ?_⟩
    -- A directory in the place itself could not be read as a file.
    have hstatus := readFile_eq_ok.1 hread
    rcases putDown_cases hidle hup hvacant hsame .directory with
      hput | ⟨node, hput, -, hthere, hnode⟩
    · rw [hput] at hstatus
      exact hvacant.status_ne_ok hstatus
    · rw [hput, hthere] at hstatus
      cases hstatus
      rcases hnode with hnode | ⟨_, -, hleaving⟩
      · cases hnode
      · cases hleaving

theorem leaving_of_readText {t : FileTree} {cwd directory out : Place} {text : String}
    (hidle : isIdle name = false) (hup : name ≠ "..") (hvacant : Vacant t cwd (p.child name) out)
    (hsame : ∀ aim place, t.locate directory aim (p.child name) = .ok place →
      t.locate cwd aim (p.child name) = .ok place) {leaving : Leaving}
    (htext : (putDown t directory (p.child name) leaving).1.readText cwd (p.child name) =
      .ok text) :
    ∃ bytes, leaving = .file bytes ∧ Utf8.decodeText bytes = .ok text := by
  obtain ⟨bytes, hbytes, hdecode⟩ := readText_eq_ok.1 htext
  rcases leaving_of_readFile hidle hup hvacant hbytes with hleaving | ⟨-, hother⟩
  · exact ⟨bytes, hleaving, hdecode⟩
  · exact absurd hsame hother

/-! ## Judging the document -/

variable {room : Nat}

theorem readOutput_eq_found {exitCode code : Int} {text : String} {items : List Json} :
    readOutput room exitCode text = .ok (.found code items) ↔ code = exitCode ∧
      ∃ document, Json.read room text = .ok document ∧ declaredFailure document = none ∧
        findingItems document = .ok items := by
  unfold readOutput judge
  cases Json.read room text with
  | error fault => simp
  | ok document =>
    cases hitems : findingItems document with
    | error fault => simp [hitems]
    | ok found =>
      cases hdeclared : declaredFailure document with
      | some reason => simp [hdeclared, hitems]
      | none => simp [hdeclared, hitems, eq_comm]

/-- A text is not made out for want of room exactly if it is nested too deep. -/
theorem readOutput_eq_error {exitCode : Int} {text : String} (he : e.isOfInput = false) :
    readOutput room exitCode text = .error e ↔ ∃ error, Json.read room text = .error error ∧
      error.problem.isDepth = true ∧ e = .unreadable error := by
  unfold readOutput judge
  cases Json.read room text with
  | error error =>
    constructor
    · intro heq
      cases heq
      rw [Failure.isOfInput_unreadable, Bool.not_eq_false'] at he
      exact ⟨error, rfl, he, rfl⟩
    · rintro ⟨_, heq, -, rfl⟩
      cases heq
      rfl
  | ok document =>
    -- Whatever else is wrong is wrong with what has been read.
    have hshape : ∀ shape, Failure.misshapen shape ≠ e := by
      rintro shape rfl
      cases he
    cases hitems : findingItems document with
    | error shape => simp [hitems, hshape]
    | ok items =>
      cases hdeclared : declaredFailure document with
      | some reason => simp [hitems, hdeclared]
      | none => simp [hitems, hdeclared]

/-- What becomes of a failure to make out the document of a run: it is the run's, unless it does not
come of the document. -/
def unreadable (given : Answer) (e : Failure) : Except Failure RunResult :=
  if e.isOfInput then .ok (.failed (some given.exitCode) ("unreadable output: " ++ e.message))
  else .error e

theorem unreadable_eq_error {e' : Failure} :
    unreadable given e = .error e' ↔ e.isOfInput = false ∧ e' = e := by
  unfold unreadable
  cases e.isOfInput <;> simp [eq_comm]

theorem unreadable_ne_found {code : Int} {items : List Json} :
    unreadable given e ≠ .ok (.found code items) := by
  unfold unreadable
  split
  · rintro ⟨⟩
  · rintro ⟨⟩

/-- What is made of a run that has come to its end: whether there is a document, and its text. -/
def judged (room : Nat) (given : Answer) (found : Except Failure Bool)
    (text : Except Failure String) : Except Failure RunResult :=
  match found with
  | .error e => .error e
  | .ok false =>
    let reason := Text.strip given.stderr
    .ok (.failed (some given.exitCode)
      (if reason = "" then s!"exit code {given.exitCode}" else reason))
  | .ok true =>
    match text.bind (readOutput room given.exitCode) with
    | .error e => unreadable given e
    | .ok result => .ok result

/-- A run is judged to have found something by a text that is a document with findings and does not
say that the analysis failed. -/
theorem judged_eq_found {found : Except Failure Bool} {text : Except Failure String} {code : Int}
    {items : List Json} :
    judged room given found text = .ok (.found code items) ↔ found = .ok true ∧
      code = given.exitCode ∧ ∃ spelt document, text = .ok spelt ∧
        Json.read room spelt = .ok document ∧ declaredFailure document = none ∧
        findingItems document = .ok items := by
  constructor
  · intro hjudged
    unfold judged at hjudged
    -- Each branch but the last says that the run failed.
    split at hjudged
    · cases hjudged
    · cases hjudged
    · refine ⟨rfl, ?_⟩
      split at hjudged
      · exact absurd hjudged unreadable_ne_found
      · next result hresult =>
        cases hjudged
        cases text with
        | error e => cases hresult
        | ok spelt =>
          obtain ⟨hcode, document, hdocument⟩ := readOutput_eq_found.1 hresult
          exact ⟨hcode, spelt, document, rfl, hdocument⟩
  · rintro ⟨rfl, rfl, spelt, document, rfl, hdocument⟩
    rw [judged, Except.bind, readOutput_eq_found.2 ⟨rfl, document, hdocument⟩]

/-- Judging a run fails where it is not known whether there is a document, and where the document
is nested too deep to be read. -/
theorem judged_eq_error {found : Except Failure Bool} {text : Except Failure String}
    (htext : ∀ fault, text = .error fault → fault.isOfInput = true) :
    judged room given found text = .error e ↔ found = .error e ∨
      found = .ok true ∧ ∃ spelt error, text = .ok spelt ∧ Json.read room spelt = .error error ∧
        error.problem.isDepth = true ∧ e = .unreadable error := by
  constructor
  · intro hjudged
    unfold judged at hjudged
    split at hjudged
    · cases hjudged
      exact .inl rfl
    · cases hjudged
    · refine .inr ⟨rfl, ?_⟩
      split at hjudged
      · next fault hreport =>
        obtain ⟨hinput, rfl⟩ := unreadable_eq_error.1 hjudged
        cases text with
        | error fault =>
          -- A file that cannot be read is the document's own failure.
          cases hreport
          rw [htext _ rfl] at hinput
          cases hinput
        | ok spelt =>
          obtain ⟨error, hread, hdepth, heq⟩ := (readOutput_eq_error hinput).1 hreport
          exact ⟨spelt, error, rfl, hread, hdepth, heq⟩
      · cases hjudged
  · rintro (rfl | ⟨rfl, spelt, error, rfl, hread, hdepth, rfl⟩)
    · rfl
    · have hinput : (Failure.unreadable error).isOfInput = false := by
        rw [Failure.isOfInput_unreadable, hdepth]
        rfl
      have hreport : readOutput room given.exitCode spelt = .error (.unreadable error) :=
        (readOutput_eq_error hinput).2 ⟨error, hread, hdepth, rfl⟩
      rw [judged, Except.bind, hreport]
      exact unreadable_eq_error.2 ⟨hinput, rfl⟩

/-- A text that is read and made out at once. -/
theorem readText_bind_ofExcept {α : Type} (f : String → Except Failure α) (output : Path)
    (h : Host) :
    (do
      let text ← Host.readText output
      Action.ofExcept (f text)) h =
      Action.ofExcept ((h.files.readText h.cwd output).bind f) h := by
  cases htext : h.files.readText h.cwd output with
  | error e =>
    have hunread : Host.readText output h = .error e h := query_eq_error.2 ⟨htext, rfl⟩
    exact bind_of_error hunread
  | ok text =>
    have hread : Host.readText output h = .ok text h := query_eq_ok.2 ⟨htext, rfl⟩
    exact bind_of_ok hread

/-- **Judging a run** looks at the place of its document, and changes nothing. -/
theorem collect_eq (output : Path) (given : Answer) (h : Host) :
    collect output given h = Action.ofExcept
      (judged h.room given (h.files.exists? h.cwd output) (h.files.readText h.cwd output)) h := by
  unfold collect
  cases hfound : h.files.exists? h.cwd output with
  | error e =>
    have hunknown : Host.exists? output h = .error e h := query_eq_error.2 ⟨hfound, rfl⟩
    exact bind_of_error hunknown
  | ok found =>
    have hrun : Host.exists? output h = .ok found h := query_eq_ok.2 ⟨hfound, rfl⟩
    rw [bind_of_ok hrun]
    cases found with
    | false => rfl
    | true =>
      rw [if_pos rfl, bind_of_ok (show (get : Action Host) h = .ok h h from rfl)]
      have hinner := readText_bind_ofExcept (readOutput h.room given.exitCode) output h
      unfold judged unreadable
      dsimp only
      cases hreport : (h.files.readText h.cwd output).bind (readOutput h.room given.exitCode) with
      | error e =>
        -- A failure in there is caught if it comes of the document, and passed on if not.
        rw [hreport] at hinner
        dsimp only
        cases he : e.isOfInput with
        | true => exact bind_of_ok (catching_of_error hinner he)
        | false => exact bind_of_error (catching_of_uncaught hinner he)
      | ok result =>
        rw [hreport] at hinner
        exact bind_of_ok (catching_of_ok hinner)

/-- **A run has found something** exactly if a text can be read that is a document with findings
and does not say that the analysis failed. -/
theorem collect_eq_found {code : Int} {items : List Json} :
    collect output given h = .ok (.found code items) h' ↔ h' = h ∧ code = given.exitCode ∧
      ∃ text document, h.files.readText h.cwd output = .ok text ∧
        Json.read h.room text = .ok document ∧ declaredFailure document = none ∧
        findingItems document = .ok items := by
  rw [collect_eq, ofExcept_eq_ok, and_comm, judged_eq_found]
  refine and_congr_right fun _ => and_iff_right_of_imp ?_
  -- What can be read is there.
  rintro ⟨-, text, document, htext, -⟩
  obtain ⟨bytes, hread, -⟩ := readText_eq_ok.1 htext
  exact test_eq_true.2 ⟨_, readFile_eq_ok.1 hread, rfl⟩

/-- **Judging a run fails** where it cannot be looked whether there is a document, and where the
document is nested too deep to be read. -/
theorem collect_eq_error :
    (∃ h', collect output given h = .error e h') ↔
      h.files.exists? h.cwd output = .error e ∨
        h.files.exists? h.cwd output = .ok true ∧
          ∃ text error, h.files.readText h.cwd output = .ok text ∧
            Json.read h.room text = .error error ∧ error.problem.isDepth = true ∧
            e = .unreadable error := by
  rw [collect_eq, ← judged_eq_error fun _ => isOfInput_of_readText]
  exact ⟨fun ⟨_, herror⟩ => (ofExcept_eq_error.1 herror).1,
    fun hjudged => ⟨h, ofExcept_eq_error.2 ⟨hjudged, rfl⟩⟩⟩

/-! ## An analysis -/

/-- What a run answers that was told a path to write to. -/
def answerIn (h : Host) (place : Place) (output : Path) (behaviour : Behaviour) : Answer :=
  behaviour.answer (putDown h.files place output behaviour.leaving).2

/-- The world after a run has put down what it leaves. -/
def ranIn (h : Host) (args : List String) (place : Place) (output : Path)
    (behaviour : Behaviour) : Host :=
  { h with files := (putDown h.files place output behaviour.leaving).1, calls := h.calls ++ [args] }

theorem room_ranIn (h : Host) (args : List String) (place : Place) (output : Path)
    (behaviour : Behaviour) : (ranIn h args place output behaviour).room = h.room := rfl

/-- What is made of a run that has not come to its end: running out of time and what the system
refuses are failures of the analysis, everything else is passed on. -/
def blamed (timeout : Int) : Failure → Except Failure RunResult
  | .timedOut => .ok (.failed none s!"Timeout after {timeout}s")
  | e => if e.isSystem then .ok (.failed none e.message) else .error e

theorem blamed_eq_ok (hblamed : blamed timeout e = .ok result) :
    ∃ reason, result = .failed none reason := by
  unfold blamed at hblamed
  split at hblamed
  · cases hblamed
    exact ⟨_, rfl⟩
  · split at hblamed
    · cases hblamed
      exact ⟨_, rfl⟩
    · cases hblamed

theorem blamed_eq_error {e' : Failure} :
    blamed timeout e = .error e' ↔ e.isSystem = false ∧ e' = e := by
  cases e <;> simp [blamed, Failure.isSystem, eq_comm]

/-- **An analysis** clears the place of its document. Then what a run leaves is judged, or someone
is blamed that there was none. -/
theorem analyze_eq (root output : Path) (solc : String) (timeout : Int) (h : Host) :
    analyze root output solc timeout h =
      match prepare output h with
      | .error e h₂ => .error e h₂
      | .ok _ h₂ =>
        match admitted h₂ (arguments root output solc) (some root) (h₂.tool.analyze (h₂.key root))
          timeout with
        | .error e => Action.ofExcept (blamed timeout e) (cutShort h₂ (arguments root output solc)
            (some root) (some output) (h₂.tool.analyze (h₂.key root)))
        | .ok place =>
          collect output (answerIn h₂ place output (h₂.tool.analyze (h₂.key root)))
            (ranIn h₂ (arguments root output solc) place output
              (h₂.tool.analyze (h₂.key root))) := by
  unfold analyze prepare
  cases hmake : Host.makeDirectories output.parent h with
  | error e h₁ => rw [bind_of_error hmake, bind_of_error hmake]
  | ok _ h₁ =>
    rw [bind_of_ok hmake, bind_of_ok hmake]
    cases hunlink : Host.unlinkIfPresent output h₁ with
    | error e h₂ => rw [bind_of_error hunlink]
    | ok _ h₂ =>
      rw [bind_of_ok hunlink, bind_of_ok (show (get : Action Host) h₂ = .ok h₂ h₂ from rfl)]
      have hstart := start_eq (arguments root output solc) (some root) (some output)
        (h₂.tool.analyze (h₂.key root)) timeout h₂
      dsimp only
      cases hplace : admitted h₂ (arguments root output solc) (some root)
          (h₂.tool.analyze (h₂.key root)) timeout with
      | ok place =>
        rw [hplace] at hstart
        rw [bind_of_ok (catching_of_ok hstart)]
        rfl
      | error e =>
        rw [hplace] at hstart
        dsimp only
        cases he : e.isSystem with
        | true =>
          rw [bind_of_ok (catching_of_error hstart he)]
          cases e <;> first | rfl | cases he
        | false =>
          rw [bind_of_error (catching_of_uncaught hstart he), blamed_eq_error.2 ⟨he, rfl⟩]
          rfl

theorem analyze_cases (hanalyze : analyze root output solc timeout h = .ok result h') :
    ∃ h₂, prepare output h = .ok () h₂ ∧
      ((∃ reason, result = .failed none reason ∧ h' = cutShort h₂ (arguments root output solc)
          (some root) (some output) (h₂.tool.analyze (h₂.key root))) ∨
        ∃ place, admitted h₂ (arguments root output solc) (some root)
            (h₂.tool.analyze (h₂.key root)) timeout = .ok place ∧
          collect output (answerIn h₂ place output (h₂.tool.analyze (h₂.key root)))
            (ranIn h₂ (arguments root output solc) place output (h₂.tool.analyze (h₂.key root))) =
              .ok result h') := by
  rw [analyze_eq] at hanalyze
  cases hprepare : prepare output h with
  | error e h₂ =>
    rw [hprepare] at hanalyze
    cases hanalyze
  | ok _ h₂ =>
    rw [hprepare] at hanalyze
    refine ⟨h₂, rfl, ?_⟩
    dsimp only at hanalyze
    cases hplace : admitted h₂ (arguments root output solc) (some root)
        (h₂.tool.analyze (h₂.key root)) timeout with
    | ok place =>
      rw [hplace] at hanalyze
      exact .inr ⟨place, rfl, hanalyze⟩
    | error e =>
      rw [hplace] at hanalyze
      obtain ⟨hblamed, hhost⟩ := ofExcept_eq_ok.1 hanalyze
      obtain ⟨reason, hreason⟩ := blamed_eq_ok hblamed
      exact .inl ⟨reason, hreason, hhost⟩

/-- Why a run stops without a result once the place of its document is clear: the program cannot be
told its arguments or be timed, it cannot be looked whether there is a document, or the document is
nested too deep. -/
inductive Stuck (root output : Path) (solc : String) (timeout : Int) (h : Host) : Failure → Prop
  | arguments : (h.tool.command :: Analyzer.arguments root output solc).all isPassable = false →
      Stuck root output solc timeout h .embeddedNul
  | time {place : Place} :
      (h.tool.command :: Analyzer.arguments root output solc).all isPassable = true →
      runDirectory h (some root) = .ok place → startFailure h.tool = none → 0 < timeout →
      isMeasurable timeout = false → Stuck root output solc timeout h .endlessTimeout
  | document {e : Failure} {place : Place} :
      admitted h (Analyzer.arguments root output solc) (some root) (h.tool.analyze (h.key root))
        timeout = .ok place →
      (putDown h.files place output (h.tool.analyze (h.key root)).leaving).1.exists? h.cwd output =
        .error e →
      Stuck root output solc timeout h e
  | nesting {place : Place} {text : String} {error : Json.ReadError} :
      admitted h (Analyzer.arguments root output solc) (some root) (h.tool.analyze (h.key root))
        timeout = .ok place →
      (putDown h.files place output (h.tool.analyze (h.key root)).leaving).1.readText h.cwd output =
        .ok text →
      Json.read h.room text = .error error → error.problem.isDepth = true →
      Stuck root output solc timeout h (.unreadable error)

/-- Why an analysis stops without a result: the place of its document cannot be cleared, or the run
does. -/
inductive Breaks (root output : Path) (solc : String) (timeout : Int) (h : Host)
    (e : Failure) : Prop
  | place {h₂ : Host} : prepare output h = .error e h₂ → Breaks root output solc timeout h e
  | run {h₂ : Host} : prepare output h = .ok () h₂ → Stuck root output solc timeout h₂ e →
      Breaks root output solc timeout h e

/-- A run that has come to its end stops only where it cannot be looked what it has left, or where
that is nested too deep. -/
theorem stuck_of_admitted {place : Place}
    (hadmitted : admitted h (arguments root output solc) (some root) (h.tool.analyze (h.key root))
      timeout = .ok place) :
    Stuck root output solc timeout h e ↔ ∃ h', collect output
      (answerIn h place output (h.tool.analyze (h.key root)))
      (ranIn h (arguments root output solc) place output (h.tool.analyze (h.key root))) =
        .error e h' := by
  obtain ⟨hargs, -, -, -, hmeasurable, -⟩ := admitted_eq_ok.1 hadmitted
  rw [collect_eq_error]
  refine ⟨fun hstuck => ?_, ?_⟩
  rotate_left
  · rintro (hexists | ⟨-, text, error, htext, hread, hdepth, rfl⟩)
    · exact .document hadmitted hexists
    · exact .nesting hadmitted htext hread hdepth
  cases hstuck with
  | arguments hnul =>
    rw [hargs] at hnul
    cases hnul
  | time _ _ _ _ hendless =>
    rw [hmeasurable] at hendless
    cases hendless
  | document hplace hexists =>
    rw [hadmitted] at hplace
    cases hplace
    exact .inl hexists
  | nesting hplace htext hread hdepth =>
    rw [hadmitted] at hplace
    cases hplace
    obtain ⟨bytes, hbytes, -⟩ := readText_eq_ok.1 htext
    exact .inr ⟨test_eq_true.2 ⟨_, readFile_eq_ok.1 hbytes, rfl⟩, _, _, htext, hread, hdepth, rfl⟩

/-- A run that has not come to its end stops with what nobody is blamed for. -/
theorem stuck_of_not_admitted {fault : Failure}
    (hadmitted : admitted h (arguments root output solc) (some root) (h.tool.analyze (h.key root))
      timeout = .error fault) :
    Stuck root output solc timeout h e ↔ fault.isSystem = false ∧ e = fault := by
  have hroot := root_mem_arguments root output solc
  constructor
  · intro hstuck
    cases hstuck with
    | arguments hnul =>
      have herror : admitted h (arguments root output solc) (some root)
          (h.tool.analyze (h.key root)) timeout = .error .embeddedNul :=
        (admitted_eq_error hroot rfl).2 (.inl ⟨hnul, rfl⟩)
      rw [hadmitted] at herror
      cases herror
      exact ⟨rfl, rfl⟩
    | time hargs hplace hstart hpositive hendless =>
      have herror : admitted h (arguments root output solc) (some root)
          (h.tool.analyze (h.key root)) timeout = .error .endlessTimeout :=
        (admitted_eq_error hroot rfl).2
          (.inr ⟨hargs, ⟨_, hplace⟩, hstart, hpositive, hendless, rfl⟩)
      rw [hadmitted] at herror
      cases herror
      exact ⟨rfl, rfl⟩
    | document hplace | nesting hplace =>
      rw [hadmitted] at hplace
      cases hplace
  · rintro ⟨hsystem, rfl⟩
    rcases (admitted_eq_error hroot hsystem).1 hadmitted with ⟨hnul, rfl⟩ |
      ⟨hargs, ⟨place, hplace⟩, hstart, hpositive, hendless, rfl⟩
    · exact .arguments hnul
    · exact .time hargs hplace hstart hpositive hendless

/-- Once the place is clear only the run can be what breaks an analysis. -/
theorem breaks_of_prepare {h₂ : Host} (hprepare : prepare output h = .ok u h₂) :
    Breaks root output solc timeout h e ↔ Stuck root output solc timeout h₂ e := by
  refine ⟨?_, .run hprepare⟩
  rintro (⟨hfault⟩ | ⟨hok, hstuck⟩)
  · rw [hprepare] at hfault
    cases hfault
  · rw [hprepare] at hok
    cases hok
    exact hstuck

/-- **When an analysis stops without a result.** -/
theorem analyze_eq_error :
    (∃ h', analyze root output solc timeout h = .error e h') ↔
    Breaks root output solc timeout h e := by
  rw [analyze_eq]
  cases hprepare : prepare output h with
  | error fault h₂ =>
    constructor
    · rintro ⟨_, heq⟩
      cases heq
      exact .place hprepare
    · rintro (⟨hfault⟩ | ⟨hok, -⟩)
      · rw [hprepare] at hfault
        cases hfault
        exact ⟨h₂, rfl⟩
      · rw [hprepare] at hok
        cases hok
  | ok _ h₂ =>
    rw [breaks_of_prepare hprepare]
    dsimp only
    cases hadmitted : admitted h₂ (arguments root output solc) (some root)
        (h₂.tool.analyze (h₂.key root)) timeout with
    | ok place => exact (stuck_of_admitted hadmitted).symm
    | error fault =>
      rw [stuck_of_not_admitted hadmitted, ← blamed_eq_error]
      constructor
      · rintro ⟨_, herror⟩
        exact (ofExcept_eq_error.1 herror).1
      · exact fun hblamed => ⟨_, ofExcept_eq_error.2 ⟨hblamed, rfl⟩⟩

/-- Whether findings are those of a document that a run has left, and that does not say that the
analysis failed. -/
def Reports (room : Nat) (behaviour : Behaviour) (items : List Json) : Prop :=
  ∃ bytes text document, behaviour.leaving = .file bytes ∧ Utf8.decodeText bytes = .ok text ∧
    Json.read room text = .ok document ∧ declaredFailure document = none ∧
    findingItems document = .ok items

/-- What a run that is stopped has put down is in the place of its document as well. -/
theorem cutShort_changed {files : FileTree} {out : Place} (hidle : isIdle name = false)
    (hup : name ≠ "..") (hvacant : Vacant files h.cwd (p.child name) out)
    (hsame : SamePlaces { h with files := files } root (p.child name)) :
    ∃ files', ChangedIn (· = out) files files' ∧
      cutShort { h with files := files } args (some root) (some (p.child name)) behaviour =
        { h with files := files' } := by
  rcases cutShort_cases
    { h with files := files } args (some root) (some (p.child name)) behaviour with
    hcut | ⟨place, hplace, hcut⟩
  · exact ⟨files, .refl _ files, hcut⟩
  · have hthere : ∀ aim q, files.locate place aim (p.child name) = .ok q →
        files.locate h.cwd aim (p.child name) = .ok q := fun aim q => hsame place aim q hplace
    exact ⟨_, putDown_changed hidle hup hvacant hthere behaviour.stopped, hcut⟩

/-- **An analysis changes the place of its document**, and finds what the run has left there. -/
theorem analyze_changes (hidle : isIdle name = false) (hup : name ≠ "..")
    (hsame : ∀ h₂, prepare (p.child name) h = .ok () h₂ → SamePlaces h₂ root (p.child name))
    (hanalyze : analyze root (p.child name) solc timeout h = .ok result h') :
    (∃ out, out.getLast? = some name ∧ ChangedIn (· = out) h.files h'.files) ∧
      h' = { h with files := h'.files, calls := h'.calls } ∧
      ∀ code items, result = .found code items →
        Reports h.room (h.tool.analyze (h.key root)) items := by
  obtain ⟨h₂, hprepare, hrun⟩ := analyze_cases hanalyze
  have hplaces := hsame h₂ hprepare
  obtain ⟨out, files, rfl, hname, hchanged, hvacant⟩ := vacant_of_prepare hidle hup hprepare
  rcases hrun with ⟨reason, rfl, hhost⟩ | ⟨place, hadmitted, hcollect⟩
  · obtain ⟨files', hchanged', hcut⟩ := cutShort_changed hidle hup hvacant hplaces
    rw [hcut] at hhost
    rw [hhost]
    exact ⟨⟨out, hname, hchanged.trans hchanged'⟩, rfl, fun code items heq => by cases heq⟩
  · obtain ⟨-, hdirectory, -⟩ := admitted_eq_ok.1 hadmitted
    -- From here on it does not matter whether the run or the analysis follows the path.
    have hthere : ∀ aim q, files.locate place aim (p.child name) = .ok q →
        files.locate h.cwd aim (p.child name) = .ok q := fun aim q => hplaces place aim q hdirectory
    have hhost : h' = _ := (ofExcept_eq_ok.1 ((collect_eq ..).symm.trans hcollect)).2
    refine ⟨⟨out, hname, ?_⟩, ?_, ?_⟩
    · rw [hhost]
      exact hchanged.trans (putDown_changed hidle hup hvacant hthere _)
    · rw [hhost]
      rfl
    · rintro code items rfl
      obtain ⟨-, -, text, document, htext, hdocument⟩ := collect_eq_found.1 hcollect
      obtain ⟨bytes, hleaving, hdecode⟩ := leaving_of_readText hidle hup hvacant hthere htext
      exact ⟨bytes, text, document, hleaving, hdecode, hdocument⟩

end SourceDrift.Analyzer
