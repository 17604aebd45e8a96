/-
Stores that share a workspace.

Each store keeps its own copy of a workspace's findings and writes the whole of it. The lock
guards single reads and writes, so that no half-written file is ever read; it does not make a
store look at what another has written since. A store that has not looked puts an older list
back when it validates.

Where every store that writes has been handed the findings or has loaded them since they were
last handed in, that cannot happen: what is stored is never the same for long, because digests
and states come and go, but the canonical forms are those that were handed in. A store that has
loaded has them from the file, and a store that has only validated has them still.
-/
import SourceDrift.Proofs.Store.Duplicates
import SourceDrift.Proofs.Store.Ingestion
import SourceDrift.Proofs.Store.Mirror

set_option autoImplicit false

namespace SourceDrift

open Finding

namespace Repository

open FileTree Host SourceDrift.Action

variable {h h' : Host} {root : Path} {fs gs : List Finding} {forms : List String} {text : String}
  {bytes : List UInt8} {u : Unit}

/-! ## Stored findings by their forms -/

/-- Whether bytes are the text of findings with given canonical forms, in this order. -/
def TextOf (forms : List String) (bytes : List UInt8) : Prop :=
  ∃ fs text, (∀ f ∈ fs, f.WellFormed) ∧ fs.map canonical = forms ∧ encode fs = .ok text ∧
    bytes = Utf8.encode text

theorem TextOf.decode (hbytes : TextOf forms bytes) (htext : Utf8.decodeText bytes = .ok text)
    (hdecode : decode h.room text = .ok gs) : gs.map canonical = forms := by
  obtain ⟨fs, written, hfs, rfl, hencode, rfl⟩ := hbytes
  exact map_canonical_of_written hfs (.inr ⟨written, hencode, rfl⟩) htext h.assuredLevels_le_room
    hdecode

/-- Whether a workspace's stored findings can be read. -/
def Readable (root : Path) (h : Host) : Prop :=
  ∃ bytes, h.files.readFile h.cwd (Storage.results root) = .ok bytes

/-- Whether a workspace's stored findings, as far as they can be read, have given forms. -/
structure Lists (root : Path) (forms : List String) (h : Host) : Prop where
  grounded : h.files.Grounded h.cwd
  text : ∀ bytes, h.files.readFile h.cwd (Storage.results root) = .ok bytes → TextOf forms bytes

theorem Lists.load (hlists : Lists root forms h)
    (hload : Repository.load root h = .ok (some gs) h') :
    gs.map canonical = forms := by
  obtain ⟨bytes, text, hread, htext, hdecode⟩ := readFile_of_load hload
  exact (hlists.text bytes hread).decode htext hdecode

/-- What has been saved has the forms that it has. -/
theorem lists_of_save (hroot : root.Proper) (hcwd : Grounded h.files h.cwd)
    (hfs : ∀ f ∈ fs, f.WellFormed) (hsave : save root fs h = .ok u h') :
    Lists root (fs.map canonical) h' := by
  obtain ⟨text, hencode, hstored⟩ := stored_of_save hroot hcwd hsave
  exact ⟨hstored.grounded, fun bytes hread => ⟨fs, text, hfs, rfl, hencode, hstored.readFile hread⟩⟩

/-- Whether one world has no fewer stored findings than another, with no other forms. -/
structure Keeps (root : Path) (forms : List String) (h h' : Host) : Prop where
  lists : Lists root forms h'
  readable : Readable root h → Readable root h'

theorem Keeps.trans {h₁ h₂ : Host} (hfirst : Keeps root forms h h₁)
    (hthen : Keeps root forms h₁ h₂) :
    Keeps root forms h h₂ :=
  ⟨hthen.lists, fun hread => hthen.readable (hfirst.readable hread)⟩

/-- What is read as before has the forms of before. -/
theorem Lists.keeps (hlists : Lists root forms h) (hcwd : Grounded h'.files h'.cwd)
    (hsame : ∀ bytes, h'.files.readFile h'.cwd (Storage.results root) = .ok bytes ↔
      h.files.readFile h.cwd (Storage.results root) = .ok bytes) : Keeps root forms h h' := by
  refine ⟨⟨hcwd, fun bytes hread => hlists.text bytes ((hsame bytes).1 hread)⟩, ?_⟩
  rintro ⟨bytes, hread⟩
  exact ⟨bytes, (hsame bytes).2 hread⟩

/-- **Saving findings with the forms of before** keeps the forms. -/
theorem Lists.keeps_of_save (hlists : Lists root forms h) (hroot : root.Proper)
    (hfs : ∀ f ∈ fs, f.WellFormed) (hforms : fs.map canonical = forms)
    (hsave : save root fs h = .ok u h') : Keeps root forms h h' := by
  have hsaved := lists_of_save hroot hlists.grounded hfs hsave
  rw [hforms] at hsaved
  refine ⟨hsaved, ?_⟩
  rintro ⟨bytes, hread⟩
  obtain ⟨text, -, hread'⟩ := holds_of_resave hroot hlists.grounded hread hsave
  exact ⟨_, hread'⟩

/-- **Reading what is stored leaves it readable as before.** -/
theorem Lists.keeps_after_load (hlists : Lists root forms h) :
    Keeps root forms h ((Repository.load root).after h) := by
  by_cases hexists : h.files.exists? h.cwd (Storage.results root) = .ok true
  · obtain ⟨hcwd, hextends⟩ := extending_load root h
    have hgrounded := hlists.grounded.mono hextends.waysIn.directory
    rw [← hcwd] at hgrounded
    refine hlists.keeps hgrounded (fun bytes => ?_)
    -- Something was found, and what is found is found still.
    obtain ⟨node, hthere, -⟩ := test_eq_true.1 hexists
    rw [hcwd, readFile_eq_ok, readFile_eq_ok, status_mono hextends hthere, hthere]
  · rw [after_load_of_not_exists hexists]
    exact ⟨hlists, id⟩

end Repository

namespace Store

variable {root : Path} {forms : List String} {s s' : Session}

/-! ## What the operations write -/

/-- Whether findings are such as are read, and there are none or they have given forms. -/
structure Formed (forms : List String) (fs : List Finding) : Prop where
  wellFormed : ∀ f ∈ fs, f.WellFormed
  forms : fs = [] ∨ fs.map canonical = forms

theorem Formed.validate {fs : List Finding} (hfs : Formed forms fs) (src : Sync.Sources)
    (changed : Option Path) : Formed forms (Sync.validate src root changed fs).1 := by
  refine ⟨wellFormed_validated src root changed hfs.wellFormed, ?_⟩
  rcases hfs.forms with rfl | hforms
  · exact .inl rfl
  · rw [Sync.map_canonical_validate]
    exact .inr hforms

theorem loadStored_formed {loaded : List Finding} (hlists : Repository.Lists root forms s.host)
    (h : loadStored root s = .ok loaded s') :
    Formed forms loaded ∧ s'.store = s.store ∧ Repository.Keeps root forms s.host s'.host := by
  rcases loadStored_cases root s with ⟨fs, hfs, hrun⟩ | ⟨e, hrun⟩
  · rw [hrun] at h
    cases h
    refine ⟨?_, rfl, hlists.keeps_after_load⟩
    rcases hfs with rfl | ⟨h', hload⟩
    · exact ⟨fun f hf => absurd hf List.not_mem_nil, .inl rfl⟩
    · obtain ⟨_, _, _, _, hdecode⟩ := Repository.readFile_of_load hload
      exact ⟨Repository.wellFormed_of_decode hdecode, .inr (hlists.load hload)⟩
  · rw [hrun] at h
    cases h

/-- **Loading** keeps the stored forms, and has them in memory afterwards. -/
theorem load_formed {u : Unit} (hroot : root.Proper) (hlists : Repository.Lists root forms s.host)
    (h : load root s = .ok u s') :
    Formed forms (get root s') ∧ Repository.Keeps root forms s.host s'.host := by
  obtain ⟨loaded, s₁, gs, s₂, hstored, hfilled, rfl⟩ := load_eq_ok.1 h
  obtain ⟨hloaded, -, hkeeps⟩ := loadStored_formed hlists hstored
  rw [get, getKey_put]
  rcases hloaded.forms with rfl | hforms
  · -- Where there is nothing to fill in nothing is written.
    cases hfilled
    exact ⟨hloaded, hkeeps⟩
  · obtain ⟨hgs, -, hwritten⟩ := backfill_eq_ok hfilled
    have hwell : ∀ g ∈ gs, g.WellFormed := by
      rw [hgs]
      exact wellFormed_redigested (Sync.capture_redigested ..) hloaded.wellFormed
    have hsame : gs.map canonical = forms := by
      rw [hgs, Sync.map_canonical_capture, hforms]
    refine ⟨⟨hwell, .inr hsame⟩, ?_⟩
    rcases hwritten with ⟨-, hhost⟩ | ⟨-, hsave⟩
    · rw [hhost]
      exact hkeeps
    · exact hkeeps.trans (hkeeps.lists.keeps_of_save hroot hwell hsame hsave)

/-- **Validating** keeps the stored forms where the store has them in memory. -/
theorem validate_formed {changed : Option Path} {report : Sync.Report} (hroot : root.Proper)
    (hlists : Repository.Lists root forms s.host) (hget : Formed forms (get root s))
    (h : validate root changed s = .ok report s') :
    Formed forms (get root s') ∧ Repository.Keeps root forms s.host s'.host := by
  have hget' : Formed forms (get root s') := by
    rw [validate_eq_ok h]
    exact hget.validate _ _
  refine ⟨hget', ?_⟩
  rcases hget.forms with hnil | hforms
  · rw [validate_of_nil hnil] at h
    cases h
    exact ⟨hlists, id⟩
  · rcases validate_cases h with ⟨-, hhost⟩ | hsave
    · rw [hhost]
      exact ⟨hlists, id⟩
    · refine hlists.keeps_of_save hroot hget'.wellFormed ?_ hsave
      rw [validate_eq_ok h, Sync.map_canonical_validate]
      exact hforms

/-! ## Many stores on one workspace -/

/-- Whether a world is one that another can become until findings are handed in again, while
stores work on one workspace and no write fails; with the stores that have been handed the
findings or have loaded them since. A store that has not may validate if that writes nothing.
What is refused is refused before anything has been done. -/
inductive Since (root : Path) (name : String) (w : World) : World → (String → Prop) → Prop
  | start : Since root name w w (· = name)
  | load {later : World} {current : String → Prop} {s' : Session} (other : String) :
      Since root name w later current → Store.load root (later.session other) = .ok () s' →
      Since root name w (later.step other (.load root)) fun n => n = other ∨ current n
  | validate {later : World} {current : String → Prop} {changed : Option Path}
      {report : Sync.Report} {s' : Session} (other : String) : Since root name w later current →
      Store.validate root changed (later.session other) = .ok report s' →
      current other ∨ s'.host = later.host →
      Since root name w (later.step other (.validate root changed)) current
  | refused {later : World} {current : String → Prop} (other : String) (op : Operation) :
      Since root name w later current → op.run (later.session other) = later.session other →
      Since root name w (later.step other op) current
  | outside {later : World} {current : String → Prop} (h : Host) :
      Since root name w later current → h.files.Grounded h.cwd → h.key root = later.host.key root →
      (∀ bytes, h.files.readFile h.cwd (Storage.results root) = .ok bytes ↔
        later.host.files.readFile later.host.cwd (Storage.results root) = .ok bytes) →
      Since root name w { later with host := h } current

/-- Whether a workspace's findings have given forms, on disk and in the memories of some stores. -/
structure World.Agrees (root : Path) (forms : List String) (current : String → Prop) (w : World) :
    Prop where
  lists : Repository.Lists root forms w.host
  memory : ∀ name, current name → Formed forms (get root (w.session name))

/-- **One operation** concerns the memory of the store that acts, and the disk. -/
theorem World.Agrees.step {w : World} {other : String} {op : Operation}
    {current current' : String → Prop} (hw : w.Agrees root forms current)
    (hkeeps : Repository.Keeps root forms w.host (op.run (w.session other)).host)
    (hself : current' other → Formed forms (get root (op.run (w.session other))))
    (hothers : ∀ name, name ≠ other → current' name → current name) :
    (w.step other op).Agrees root forms current' ∧
      (Repository.Readable root w.host → Repository.Readable root (w.step other op).host) := by
  refine ⟨⟨hkeeps.lists, fun name hname => ?_⟩, hkeeps.readable⟩
  by_cases hacts : name = other
  · rw [hacts] at hname ⊢
    rw [World.session_step_self]
    exact hself hname
  · rw [get_step_of_ne fun heq => absurd heq.symm hacts]
    exact hw.memory name (hothers name hacts hname)

/-- **A run keeps the forms that were handed in**, wherever they are. The induction is on the run,
and each operation starts from the forms that the ones before have left. -/
theorem Since.agrees {name : String} {w later : World} {current : String → Prop}
    (h : Since root name w later current) (hroot : root.Proper)
    (hw : w.Agrees root forms (· = name)) :
    later.Agrees root forms current ∧
      (Repository.Readable root w.host → Repository.Readable root later.host) := by
  induction h with
  | start => exact ⟨hw, id⟩
  | @load later current s' other _ hload ih =>
    have hrun : (Operation.load root).run (later.session other) = s' := sessionAfter_of_ok hload
    obtain ⟨hformed, hkeeps⟩ := load_formed hroot ih.1.lists hload
    rw [← hrun] at hformed hkeeps
    obtain ⟨hagrees, hreadable⟩ := ih.1.step hkeeps (fun _ => hformed)
      fun n hn (hcurrent : n = other ∨ current n) => hcurrent.resolve_left hn
    exact ⟨hagrees, hreadable ∘ ih.2⟩
  | @validate later current changed report s' other _ hvalidate hwrites ih =>
    have hrun : (Operation.validate root changed).run (later.session other) = s' :=
      sessionAfter_of_ok hvalidate
    -- A store that may hold other forms may validate only if that writes nothing.
    have hstep : Repository.Keeps root forms later.host s'.host ∧
        (current other → Formed forms (get root s')) := by
      rcases hwrites with hcurrent | hhost
      · obtain ⟨hformed, hkeeps⟩ :=
          validate_formed hroot ih.1.lists (ih.1.memory other hcurrent) hvalidate
        exact ⟨hkeeps, fun _ => hformed⟩
      · rw [hhost]
        exact ⟨⟨ih.1.lists, id⟩, fun hcurrent =>
          (validate_formed hroot ih.1.lists (ih.1.memory other hcurrent) hvalidate).1⟩
    rw [← hrun] at hstep
    obtain ⟨hagrees, hreadable⟩ := ih.1.step hstep.1 hstep.2 fun _ _ => id
    exact ⟨hagrees, hreadable ∘ ih.2⟩
  | @refused later current other op _ hrun ih =>
    have hkeeps : Repository.Keeps root forms later.host (op.run (later.session other)).host := by
      rw [hrun]
      exact ⟨ih.1.lists, id⟩
    obtain ⟨hagrees, hreadable⟩ := ih.1.step hkeeps
      (fun hcurrent => by rw [hrun]; exact ih.1.memory other hcurrent) fun _ _ => id
    exact ⟨hagrees, hreadable ∘ ih.2⟩
  | @outside later current h _ hcwd hkey hsame ih =>
    obtain ⟨hlists, hreadable⟩ := ih.1.lists.keeps hcwd hsame
    refine ⟨⟨hlists, fun n hcurrent => ?_⟩, hreadable ∘ ih.2⟩
    have hformed := ih.1.memory n hcurrent
    rw [get] at hformed ⊢
    rw [show ({ later with host := h } : World).session n = ⟨later.stores n, h⟩ from rfl, hkey]
    exact hformed

/-- What has been handed in is what the store has, and what is stored. -/
theorem agrees_of_ingest {name : String} {w : World} {items : List Incoming} {kept : List Finding}
    {s' : Session} (hroot : root.Proper) (hcwd : w.host.files.Grounded w.host.cwd)
    (hitems : ∀ item ∈ items, item.WellFormed)
    (hingest : ingest root items (w.session name) = .ok kept s') :
    (w.step name (.ingest root items)).Agrees root ((readIncoming items).map canonical).eraseDups
      (· = name) := by
  have hrun : (Operation.ingest root items).run (w.session name) = s' := sessionAfter_of_ok hingest
  obtain ⟨hkept, hsave, hget⟩ := replaceAll_eq_ok hingest
  have hwell : ∀ f ∈ kept, f.WellFormed := by
    rw [hkept]
    exact wellFormed_redigested (Sync.capture_redigested ..) (wellFormed_handedIn hitems)
  have hforms : kept.map canonical = ((readIncoming items).map canonical).eraseDups := by
    rw [hkept, Sync.map_canonical_capture, map_canonical_distinct]
  have hlists := Repository.lists_of_save hroot hcwd hwell hsave
  rw [hforms] at hlists
  constructor
  · rw [show (w.step name (.ingest root items)).host = s'.host from congrArg Session.host hrun]
    exact hlists
  · rintro _ rfl
    rw [World.session_step_self, hrun, hget]
    exact ⟨hwell, .inr hforms⟩

/-- **Handing in is not lost where stores look before they write.** At every point until findings
are handed in again, what is read where the findings are stored is the text of findings with the
forms that were handed in, in order and each once, and so is what is loaded; it can be read if it
could be after they were handed in, which it could if the workspace's directory was reached. And
each store that has been handed them, or has loaded them since, has these forms in memory, or
nothing. -/
theorem ingestion_is_not_lost {path name : String} {items : List Incoming} {kept : List Finding}
    {w later : World} {s' : Session} {current : String → Prop}
    (hcwd : w.host.files.Grounded w.host.cwd)
    (hitems : ∀ item ∈ items, item.WellFormed)
    (hingest : ingest (Path.ofString path) items (w.session name) = .ok kept s')
    (hrun : Since (Path.ofString path) name (w.step name (.ingest (Path.ofString path) items)) later
      current) :
    (∀ bytes, later.host.files.readFile later.host.cwd (Storage.results (Path.ofString path)) =
        .ok bytes → Repository.TextOf ((readIncoming items).map canonical).eraseDups bytes) ∧
      (∀ fs h', Repository.load (Path.ofString path) later.host = .ok (some fs) h' →
        fs.map canonical = ((readIncoming items).map canonical).eraseDups) ∧
      (s'.host.files.isDirectory? s'.host.cwd (Storage.directory (Path.ofString path)) = .ok true →
        ∃ bytes, later.host.files.readFile later.host.cwd (Storage.results (Path.ofString path)) =
          .ok bytes) ∧
      ∀ other, current other → get (Path.ofString path) (later.session other) = [] ∨
        (get (Path.ofString path) (later.session other)).map canonical =
          ((readIncoming items).map canonical).eraseDups := by
  have hroot := Path.proper_ofString path
  generalize Path.ofString path = root at hroot hingest hrun ⊢
  obtain ⟨hagrees, hreadable⟩ := hrun.agrees hroot (agrees_of_ingest hroot hcwd hitems hingest)
  refine ⟨hagrees.lists.text, fun fs h' => hagrees.lists.load, fun hdirectory => ?_,
    fun other hcurrent => (hagrees.memory other hcurrent).forms⟩
  -- The file could be read when the findings were handed in, if its directory was there.
  obtain ⟨-, hsave, -⟩ := replaceAll_eq_ok hingest
  obtain ⟨text, -, hread⟩ := (Repository.holds_iff_of_save hroot hcwd hsave).2 hdirectory
  refine hreadable ⟨Utf8.encode text, ?_⟩
  rw [show (w.step name (.ingest root items)).host = s'.host from
    congrArg Session.host (sessionAfter_of_ok hingest)]
  exact hread

/-- A document that is no more than the name of another rule. -/
def otherDocument : Json := .obj [("check", .str "y")]

/-- The world after one store has been handed a finding. -/
def firstWorld : World :=
  freshWorld.step "first" (.ingest (Path.ofString "") [.document plainDocument])

/-- The world after another store has loaded it. -/
def sharedWorld : World := firstWorld.step "second" (.load (Path.ofString ""))

/-- The world after the other store has validated it. -/
def judgedWorld : World := sharedWorld.step "second" (.validate (Path.ofString "") none)

/-- A store that has loaded a finding validates it: what is stored has a state then, and the form
that was handed in. -/
theorem ingestion_is_not_lost_by_loaded :
    (∃ bytes, judgedWorld.host.files.readFile judgedWorld.host.cwd
        (Storage.results (Path.ofString "")) = .ok bytes ∧
      Repository.TextOf ["\x7b\"check\":\"x\"\x7d"] bytes) ∧
      (get (Path.ofString "") (judgedWorld.session "second")).map canonical =
        ["\x7b\"check\":\"x\"\x7d"] ∧
      (get (Path.ofString "") (firstWorld.session "first")).map Finding.sync = [.unknown] ∧
      (get (Path.ofString "") (judgedWorld.session "second")).map Finding.sync = [.inSync] := by
  have hitems : ∀ item ∈ [Incoming.document plainDocument], item.WellFormed := by
    intro item hitem
    rw [List.mem_singleton.1 hitem]
    exact (by decide : plainDocument.hasUniqueKeys = true)
  obtain ⟨kept, hingest⟩ := eq_ok_of_answer (show (answer? (ingest (Path.ofString "")
    [.document plainDocument]) (freshWorld.session "first")).isSome by decide +kernel)
  obtain ⟨_, hload⟩ := eq_ok_of_answer (show (answer? (load (Path.ofString ""))
    (firstWorld.session "second")).isSome by decide +kernel)
  obtain ⟨report, hvalidate⟩ := eq_ok_of_answer (show (answer? (validate (Path.ofString "") none)
    (sharedWorld.session "second")).isSome by decide +kernel)
  have hrun : Since (Path.ofString "") "first" firstWorld judgedWorld
      fun n => n = "second" ∨ n = "first" :=
    .validate "second" (.load "second" .start hload) hvalidate (.inl (.inl rfl))
  have hdirectory := eq_ok_of_toOption (show ((sessionAfter (ingest (Path.ofString "")
    [.document plainDocument]) (freshWorld.session "first")).host.files.isDirectory?
      (sessionAfter (ingest (Path.ofString "") [.document plainDocument])
        (freshWorld.session "first")).host.cwd (Storage.directory (Path.ofString ""))).toOption =
          some true by decide +kernel)
  have hforms : ((readIncoming [.document plainDocument]).map canonical).eraseDups =
      ["\x7b\"check\":\"x\"\x7d"] := by decide +kernel
  obtain ⟨htext, -, hreadable, hmemory⟩ :=
    ingestion_is_not_lost grounded_emptySession hitems hingest hrun
  obtain ⟨bytes, hread⟩ := hreadable hdirectory
  rw [← hforms]
  refine ⟨⟨bytes, hread, htext bytes hread⟩, (hmemory "second" (.inl rfl)).resolve_left ?_,
    by decide +kernel, by decide +kernel⟩
  intro hnil
  exact absurd (congrArg List.length hnil) (by decide +kernel)

/-- The canonical forms of what is loaded in a world, if anything is. -/
def loadedForms (root : Path) (h : Host) : Option (List String) :=
  match Repository.load root h with
  | .ok (some fs) _ => some (fs.map canonical)
  | _ => none

theorem load_of_loadedForms {h : Host} (hforms : loadedForms root h = some forms) :
    ∃ fs h', Repository.load root h = .ok (some fs) h' ∧ fs.map canonical = forms := by
  unfold loadedForms at hforms
  split at hforms
  · next fs h' hload => exact ⟨fs, h', hload, Option.some.inj hforms⟩
  · cases hforms

/-- The world after another store, which has not looked, has been handed another finding. -/
def overtakenWorld : World :=
  firstWorld.step "second" (.ingest (Path.ofString "") [.document otherDocument])

/-- The world after the first store has validated what it has in memory. -/
def staleWorld : World := overtakenWorld.step "first" (.validate (Path.ofString "") none)

/-- **A store that has not looked puts its own findings back.** Two stores are handed findings one
after the other, and the first validates: what was handed in last is stored no more. -/
theorem ingestion_lost_to_stale_store :
    (∃ kept, ingest (Path.ofString "") [.document plainDocument] (freshWorld.session "first") =
        .ok kept (firstWorld.session "first")) ∧
      (∃ kept, ingest (Path.ofString "") [.document otherDocument] (firstWorld.session "second") =
        .ok kept (overtakenWorld.session "second")) ∧
      (∃ report, validate (Path.ofString "") none (overtakenWorld.session "first") =
        .ok report (staleWorld.session "first")) ∧
      ∃ fs h', Repository.load (Path.ofString "") staleWorld.host = .ok (some fs) h' ∧
        fs.map canonical ≠ ((readIncoming [.document otherDocument]).map canonical).eraseDups := by
  refine ⟨?_, ?_, ?_, ?_⟩
  · rw [firstWorld, World.session_step_self]
    exact eq_ok_of_answer (by decide +kernel)
  · rw [overtakenWorld, World.session_step_self]
    exact eq_ok_of_answer (by decide +kernel)
  · rw [staleWorld, World.session_step_self]
    exact eq_ok_of_answer (by decide +kernel)
  have hloaded : loadedForms (Path.ofString "") staleWorld.host =
      some ["\x7b\"check\":\"x\"\x7d"] := by decide +kernel
  obtain ⟨fs, h', hload, hforms⟩ := load_of_loadedForms hloaded
  refine ⟨fs, h', hload, ?_⟩
  rw [hforms]
  decide +kernel

end Store
end SourceDrift
