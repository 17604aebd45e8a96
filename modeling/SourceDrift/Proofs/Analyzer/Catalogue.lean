/-
The rules of the analyser, or why there are none.

The analyser is asked for its rules by a run of its own, and what it prints is taken for a
catalogue. Whoever asks is ready for three kinds of failure: the system does not start the analyser
or it does not end in time, what it prints is no catalogue or takes more room than there is, or it
prints nothing and ends badly. `Ends` lists these beside the one good end, in which the rules come
in the order of their names, and beside an end that nobody is ready for. It is met where the
printed text is a document that has nothing in it to go through, such as a number; whatever else
may be printed is listed or reported, as far as the console takes what it is told to print.

The good end says that no rule is lost and that rules of one name keep the order in which they were
printed. Sorting is stable, so the rules of one name are still in order among all of them, and there
are as many of them as before.
-/
import SourceDrift.Cli.Analyses
import SourceDrift.Proofs.Analyzer.Run
import SourceDrift.Proofs.Cli.Printing
import SourceDrift.Proofs.Finding.Shallow
import SourceDrift.Proofs.Json.Tokens
import SourceDrift.Proofs.Sync.Agreement

set_option autoImplicit false

namespace SourceDrift.Analyzer

open SourceDrift.Action

variable {h h' : Host} {ds entries : List Detector} {items : List Json} {v : Json} {text : String}
  {room : Nat} {e : Failure}

/-! ## Catalogues -/

/-- Whether a text is a catalogue, and which rules it lists. An object and a text are gone through
like a list, by their keys and characters, none of which is a rule. -/
inductive Lists (room : Nat) (text : String) : List Detector → Prop
  | items {vs : List Json} {entries : List Detector} : Json.read room text = .ok (.arr vs) →
      List.Forall₂ (fun v d => Detector.ofJson v = .ok d) vs entries → Lists room text entries
  | noMembers : Json.read room text = .ok (.obj []) → Lists room text []
  | noCharacters : Json.read room text = .ok (.str "") → Lists room text []

/-- Whether a value has nothing in it to go through. -/
inductive Unlistable : Json → Prop
  | null : Unlistable .null
  | bool (b : Bool) : Unlistable (.bool b)
  | int (n : Int) : Unlistable (.int n)
  | float (x : Binary64) : Unlistable (.float x)

theorem catalogueItems_eq_error :
    catalogueItems v = .error e ↔ Unlistable v ∧ e = .notIterable (kindName v) := by
  constructor
  · intro herror
    cases v with
    | null =>
      cases herror
      exact ⟨.null, rfl⟩
    | bool b =>
      cases herror
      exact ⟨.bool b, rfl⟩
    | int n =>
      cases herror
      exact ⟨.int n, rfl⟩
    | float x =>
      cases herror
      exact ⟨.float x, rfl⟩
    | str _ | arr _ | obj _ => cases herror
  · rintro ⟨hbare, rfl⟩
    cases hbare <;> rfl

theorem readDetectors_cons_eq_ok {rest : List Json} : readDetectors (v :: rest) = .ok ds ↔
    ∃ d more, Detector.ofJson v = .ok d ∧ readDetectors rest = .ok more ∧ ds = d :: more := by
  rw [readDetectors]
  cases Detector.ofJson v with
  | error issues => simp
  | ok d =>
    cases readDetectors rest with
    | error e => simp
    | ok more => simp [eq_comm]

/-- Rules are read one for one. -/
theorem readDetectors_eq_ok : readDetectors items = .ok ds ↔
    List.Forall₂ (fun v d => Detector.ofJson v = .ok d) items ds := by
  induction items generalizing ds with
  | nil =>
    rw [readDetectors, List.forall₂_nil_left_iff]
    simp [eq_comm]
  | cons v rest ih =>
    rw [readDetectors_cons_eq_ok, List.forall₂_cons_left_iff]
    simp only [ih]

/-- Nothing is wrong with items but that some of them are no rules. -/
theorem readDetectors_eq_error (herror : readDetectors items = .error e) :
    ∃ issues, e = .invalid issues := by
  induction items with
  | nil => cases herror
  | cons v rest ih =>
    rw [readDetectors] at herror
    cases hv : Detector.ofJson v with
    | error issues =>
      rw [hv] at herror
      cases herror
      exact ⟨issues, rfl⟩
    | ok d =>
      rw [hv] at herror
      cases hrest : readDetectors rest with
      | error fault =>
        rw [hrest] at herror
        cases herror
        exact ih hrest
      | ok more =>
        rw [hrest] at herror
        cases herror

/-- Text is no rule. -/
theorem readDetectors_texts {α : Type} {as : List α} {toText : α → String}
    (hread : readDetectors (as.map fun a => .str (toText a)) = .ok ds) : as = [] ∧ ds = [] := by
  cases as with
  | nil =>
    cases hread
    exact ⟨rfl, rfl⟩
  | cons a rest =>
    obtain ⟨d, more, hd, -⟩ := readDetectors_cons_eq_ok.1 hread
    cases hd

/-- **A text is a catalogue exactly if its items are found and all of them are rules.** -/
theorem lists_iff : Lists room text entries ↔ ∃ v items, Json.read room text = .ok v ∧
    catalogueItems v = .ok items ∧ readDetectors items = .ok entries := by
  constructor
  · intro hlists
    cases hlists with
    | items hread hall => exact ⟨_, _, hread, rfl, readDetectors_eq_ok.2 hall⟩
    | noMembers hread => exact ⟨_, _, hread, rfl, rfl⟩
    | noCharacters hread => exact ⟨_, _, hread, rfl, rfl⟩
  · -- A member or a character is a text, and no text is a rule, so that there are none of them.
    rintro ⟨v, items, hread, hitems, hentries⟩
    cases v with
    | arr vs =>
      cases hitems
      exact .items hread (readDetectors_eq_ok.1 hentries)
    | obj members =>
      cases hitems
      obtain ⟨rfl, rfl⟩ := readDetectors_texts hentries
      exact .noMembers hread
    | str s =>
      cases hitems
      obtain ⟨hs, rfl⟩ := readDetectors_texts hentries
      rw [String.toList_eq_nil_iff] at hs
      rw [hs] at hread
      exact .noCharacters hread
    | null | bool _ | int _ | float _ => cases hitems

/-! ## The order of the rules -/

/-- Whether rules are those of a catalogue in the order of their names, rules of one name in the
order of the catalogue. -/
structure Arranged (entries ds : List Detector) : Prop where
  perm : ds.Perm entries
  ordered : ds.Pairwise fun a b => a.check ≤ b.check
  stable : ∀ name, ds.filter (fun d => d.check = name) = entries.filter fun d => d.check = name

theorem arranged_mergeSort (entries : List Detector) :
    Arranged entries (entries.mergeSort fun a b => decide (a.check ≤ b.check)) := by
  have htrans : ∀ a b c : Detector, decide (a.check ≤ b.check) = true →
      decide (b.check ≤ c.check) = true → decide (a.check ≤ c.check) = true := by
    intro a b c hab hbc
    exact decide_eq_true (String.le_trans (of_decide_eq_true hab) (of_decide_eq_true hbc))
  have htotal : ∀ a b : Detector,
      (decide (a.check ≤ b.check) || decide (b.check ≤ a.check)) = true := by
    intro a b
    rw [Bool.or_eq_true, decide_eq_true_eq, decide_eq_true_eq]
    exact String.le_total a.check b.check
  have hperm := List.mergeSort_perm entries fun a b => decide (a.check ≤ b.check)
  refine ⟨hperm, ?_, fun name => ?_⟩
  · exact (List.pairwise_mergeSort htrans htotal entries).imp of_decide_eq_true
  · -- The rules of one name are in order, so they are still there among the sorted ones.
    have hpart : ((entries.filter fun d => d.check = name).Pairwise fun a b =>
        decide (a.check ≤ b.check) = true) := by
      refine List.pairwise_of_forall_mem_list fun a ha b hb => ?_
      rw [List.mem_filter, decide_eq_true_eq] at ha hb
      rw [ha.2, hb.2]
      exact decide_eq_true (String.le_refl name)
    have hsub := (List.sublist_mergeSort htrans htotal hpart List.filter_sublist).filter
      fun d => decide (d.check = name)
    rw [List.filter_filter] at hsub
    simp only [Bool.and_self] at hsub
    exact (hsub.eq_of_length (hperm.filter _).length_eq.symm).symm

/-! ## Reading what was printed -/

theorem readCatalogue_of_lists (hlists : Lists room text entries) :
    ∃ ds, readCatalogue room text = .ok ds ∧ Arranged entries ds := by
  obtain ⟨v, items, hread, hitems, hentries⟩ := lists_iff.1 hlists
  refine ⟨_, ?_, arranged_mergeSort entries⟩
  rw [readCatalogue, hread]
  dsimp only
  rw [hitems]
  dsimp only
  rw [hentries]

theorem readCatalogue_of_unlistable (hread : Json.read room text = .ok v) (hbare : Unlistable v) :
    readCatalogue room text = .error (.notIterable (kindName v)) := by
  rw [readCatalogue, hread]
  dsimp only
  rw [catalogueItems_eq_error.2 ⟨hbare, rfl⟩]

/-- **A text is a catalogue, or has nothing in it to go through, or has a value that is not what it
should be**, or there is no room for it. -/
theorem readCatalogue_cases (room : Nat) (text : String) :
    (∃ entries, Lists room text entries) ∨ (∃ v, Json.read room text = .ok v ∧ Unlistable v) ∨
      ∃ e, readCatalogue room text = .error e ∧ (e.isValue = true ∨
        ∃ error, Json.read room text = .error error ∧ error.problem.isDepth = true ∧
          e = .unreadable error) := by
  cases hread : Json.read room text with
  | error error =>
    refine .inr (.inr ⟨.unreadable error, by rw [readCatalogue, hread], ?_⟩)
    cases hdepth : error.problem.isDepth with
    | true => exact .inr ⟨error, rfl, hdepth, rfl⟩
    | false =>
      rw [Failure.isValue, hdepth]
      exact .inl rfl
  | ok v =>
    cases hitems : catalogueItems v with
    | error e => exact .inr (.inl ⟨v, rfl, (catalogueItems_eq_error.1 hitems).1⟩)
    | ok items =>
      cases hentries : readDetectors items with
      | ok entries => exact .inl ⟨entries, lists_iff.2 ⟨v, items, hread, hitems, hentries⟩⟩
      | error e =>
        obtain ⟨issues, rfl⟩ := readDetectors_eq_error hentries
        refine .inr (.inr ⟨.invalid issues, ?_, .inl rfl⟩)
        rw [readCatalogue, hread]
        dsimp only
        rw [hitems]
        dsimp only
        rw [hentries]

/-! ## Asking -/

/-- The arguments that ask the analyser for its rules. -/
def question : List String := ["--list-detectors-json"]

/-- The world after the analyser has been asked. -/
def asked (h : Host) : Host := { h with calls := h.calls ++ [question] }

/-- What the analyser answers when it is asked: it is told no path, so that nothing refuses one. -/
def given (h : Host) : Answer := h.tool.detectors.answer none

/-- What the analyser prints when it is asked. -/
def printed (h : Host) : String := (given h).stdout

/-- Whether the analyser runs to its end when it is asked, and prints something or ends well. -/
structure Answers (h : Host) : Prop where
  passable : isPassable h.tool.command = true
  present : h.tool.presence = .executable
  ends : h.tool.detectors.hangs = false
  speaks : h.tool.detectors.exitCode = 0 ∨ Text.strip (printed h) ≠ ""

/-- What an answer comes to. -/
def catalogueOf (room : Nat) (given : Answer) : Except Failure (List Detector) :=
  if given.exitCode ≠ 0 ∧ Text.strip given.stdout = "" then
    .error (.noCatalogue (Text.strip given.stderr))
  else readCatalogue room given.stdout

/-- A run that is told no path puts nothing down. -/
theorem cutShort_untold (h : Host) (args : List String) (directory : Option Path)
    (behaviour : Behaviour) : cutShort h args directory none behaviour = h := by
  rcases cutShort_cases h args directory none behaviour with hsame | ⟨_, -, hsame⟩
  · exact hsame
  · exact hsame

/-- **Asking for the rules** changes nothing but the record of runs. -/
theorem detectors_eq (h : Host) :
    detectors h =
      match admitted h question none h.tool.detectors queryTimeout with
      | .error e => .error e h
      | .ok _ => Action.ofExcept (catalogueOf h.room (given h)) (asked h) := by
  have hstart := start_eq question none none h.tool.detectors queryTimeout h
  unfold detectors
  rw [bind_of_ok (show (get : Action Host) h = .ok h h from rfl)]
  cases hplace : admitted h question none h.tool.detectors queryTimeout with
  | error e =>
    rw [hplace, cutShort_untold] at hstart
    exact bind_of_error hstart
  | ok place =>
    have hgiven : start question none none h.tool.detectors queryTimeout h =
        .ok (given h) (asked h) := by
      rw [hstart, hplace]
      rfl
    refine (bind_of_ok hgiven).trans ?_
    unfold catalogueOf
    dsimp only
    split <;> rfl

theorem startFailure_eq_none {tool : Tool} : startFailure tool = none ↔
    tool.presence = .executable := by
  unfold startFailure
  cases tool.presence <;> simp

/-- The analyser does not run to its end only if its name cannot be passed on, or the system has it
so. -/
theorem isSystem_of_admitted_query
    (herror : admitted h question none h.tool.detectors queryTimeout = .error e) :
    e.isSystem = true ∨ e = .embeddedNul := by
  have hmeasurable : isMeasurable queryTimeout = true := by decide +kernel
  unfold admitted at herror
  by_cases hargs : (h.tool.command :: question).all isPassable = true
  · rw [if_pos hargs, runDirectory] at herror
    cases hstart : startFailure h.tool with
    | some fault =>
      rw [hstart] at herror
      cases herror
      exact .inl (isSystem_of_startFailure hstart)
    | none =>
      rw [hstart] at herror
      dsimp only at herror
      rw [if_neg (by decide), hmeasurable, if_neg (by decide)] at herror
      by_cases hhangs : h.tool.detectors.hangs = true
      · rw [if_pos hhangs] at herror
        cases herror
        exact .inl rfl
      · rw [if_neg hhangs] at herror
        cases herror
  · rw [if_neg hargs] at herror
    cases herror
    exact .inr rfl

/-- An analyser that answers is asked, and what it prints is taken for a catalogue. -/
theorem detectors_of_answers (hanswers : Answers h) :
    detectors h = Action.ofExcept (readCatalogue h.room (printed h)) (asked h) := by
  have hplace : admitted h question none h.tool.detectors queryTimeout = .ok h.cwd := by
    refine admitted_eq_ok.2 ⟨?_, rfl, startFailure_eq_none.2 hanswers.present, by decide,
      by decide +kernel, hanswers.ends⟩
    rw [List.all_cons, hanswers.passable]
    decide +kernel
  have hspeaks : ¬(h.tool.detectors.exitCode ≠ 0 ∧ Text.strip (printed h) = "") := by
    rintro ⟨hcode, hblank⟩
    rcases hanswers.speaks with hzero | hspeaks
    · exact hcode hzero
    · exact hspeaks hblank
  have hcatalogue : catalogueOf h.room (given h) = readCatalogue h.room (printed h) :=
    if_neg hspeaks
  rw [detectors_eq, hplace, ← hcatalogue]

/-- **How asking for the rules ends.** -/
inductive Ends (h : Host) : EStateM.Result Failure Host (List Detector) → Prop
  /-- The analyser prints a catalogue. -/
  | listed {entries ds : List Detector} : Answers h → Lists h.room (printed h) entries →
      Arranged entries ds → Ends h (.ok ds (asked h))
  /-- The system does not start the analyser, or it does not end in time. -/
  | refused {e : Failure} : e.isSystem = true → Ends h (.error e h)
  /-- The analyser has a name that cannot be passed on, or prints what is no catalogue. -/
  | unusable {e : Failure} {h' : Host} : e.isValue = true → Ends h (.error e h')
  /-- The analyser prints nothing and ends badly. -/
  | silent (reason : String) : Ends h (.error (.noCatalogue reason) (asked h))
  /-- The analyser prints more levels than there is room for. -/
  | nested {error : Json.ReadError} : Answers h → Json.read h.room (printed h) = .error error →
      error.problem.isDepth = true → Ends h (.error (.unreadable error) (asked h))
  /-- The analyser prints a document that has nothing in it to go through. -/
  | stray {v : Json} : Answers h → Json.read h.room (printed h) = .ok v → Unlistable v →
      Ends h (.error (.notIterable (kindName v)) (asked h))

theorem ends_detectors (h : Host) : Ends h (detectors h) := by
  cases hplace : admitted h question none h.tool.detectors queryTimeout with
  | error e =>
    rw [detectors_eq, hplace]
    rcases isSystem_of_admitted_query hplace with hsystem | rfl
    · exact .refused hsystem
    · exact .unusable rfl
  | ok place =>
    obtain ⟨hargs, -, hstart, -, -, hends⟩ := admitted_eq_ok.1 hplace
    -- The analyser has run to its end. It may have said nothing and failed, or there is something
    -- to read.
    by_cases hsilent : h.tool.detectors.exitCode ≠ 0 ∧ Text.strip (printed h) = ""
    · have hcatalogue : catalogueOf h.room (given h) =
          .error (.noCatalogue (Text.strip (given h).stderr)) := if_pos hsilent
      rw [detectors_eq, hplace, hcatalogue]
      exact .silent _
    · have hanswers : Answers h := by
        refine ⟨?_, startFailure_eq_none.1 hstart, hends, ?_⟩
        · rw [List.all_cons, Bool.and_eq_true] at hargs
          exact hargs.1
        · rw [not_and_or, not_not] at hsilent
          exact hsilent
      rw [detectors_of_answers hanswers]
      rcases readCatalogue_cases h.room (printed h) with
        ⟨entries, hlists⟩ | ⟨v, hread, hbare⟩ | ⟨e, herror, hvalue | ⟨error, hread, hdepth, rfl⟩⟩
      · obtain ⟨ds, hds, harranged⟩ := readCatalogue_of_lists hlists
        rw [hds]
        exact .listed hanswers hlists harranged
      · rw [readCatalogue_of_unlistable hread hbare]
        exact .stray hanswers hread hbare
      · rw [herror]
        exact .unusable hvalue
      · rw [herror]
        exact .nested hanswers hread hdepth

end SourceDrift.Analyzer

/-! ## The command line -/

namespace SourceDrift.Cli.Analyses

open SourceDrift.Action Analyzer Markup Script

variable {impact : Option String} {h h' : Host} {shown : List Printed} {ds : List Detector}
  {e : Failure}

/-- What the command line says of a failure to list the rules. -/
def complaint (e : Failure) : Printed :=
  .markup (styled Theme.errorHeadline "Cannot list detectors:" ++ " " ++ escape e.message)

/-- What the command line prints of rules: a row for each of those that are wanted, or a line that
there are none. -/
def catalogue (impact : Option String) (ds : List Detector) : Printed :=
  if (withImpact impact ds).isEmpty then .markup (styled Theme.dim "No detectors found")
  else .table "Slither detectors" ["Check", "Impact", "Confidence", "Title"]
    ((withImpact impact ds).map detectorRow)

/-- Rules that are listed are printed, and nothing else is done. -/
theorem detectors_of_listed (hlisted : Analyzer.detectors h = .ok ds h') :
    detectors impact ⟨h, shown⟩ = print (catalogue impact ds) ⟨h', shown⟩ := by
  have hrun : onHost (Action.catching isReported Analyzer.detectors) ⟨h, shown⟩ =
      .ok (.ok ds) ⟨h', shown⟩ := by
    rw [onHost, catching_of_ok hlisted]
  unfold detectors
  rw [bind_of_ok hrun]
  dsimp only
  unfold printDetectors catalogue
  split
  · rfl
  · rfl

/-- A failure that is reported is printed, and the command ends with an exit code. -/
theorem detectors_of_reported (hfailed : Analyzer.detectors h = .error e h')
    (hreported : isReported e = true) :
    detectors impact ⟨h, shown⟩ = (do print (complaint e); exit 1) ⟨h', shown⟩ := by
  have hrun : onHost (Action.catching isReported Analyzer.detectors) ⟨h, shown⟩ =
      .ok (.error e) ⟨h', shown⟩ := by
    rw [onHost, catching_of_error hfailed hreported]
  unfold detectors
  rw [bind_of_ok hrun]
  rfl

/-- Any other failure is passed on. -/
theorem detectors_of_unreported (hfailed : Analyzer.detectors h = .error e h')
    (hreported : isReported e = false) :
    detectors impact ⟨h, shown⟩ = .error (.failure e) ⟨h', shown⟩ := by
  have hrun : onHost (Action.catching isReported Analyzer.detectors) ⟨h, shown⟩ =
      .error (.failure e) ⟨h', shown⟩ := by
    rw [onHost, catching_of_uncaught hfailed hreported]
  unfold detectors
  rw [bind_of_error hrun]

theorem isReported_of_isSystem (hsystem : e.isSystem = true) : isReported e = true := by
  unfold isReported
  rw [Bool.or_eq_true, Bool.or_eq_true]
  exact .inl (.inl hsystem)

theorem isReported_of_isRuntime (hruntime : e.isRuntime = true) : isReported e = true := by
  unfold isReported
  rw [Bool.or_eq_true, Bool.or_eq_true]
  exact .inl (.inr hruntime)

theorem isReported_of_isValue (hvalue : e.isValue = true) : isReported e = true := by
  unfold isReported
  rw [Bool.or_eq_true]
  exact .inr hvalue

/-- **How the command line lists rules or reports why not.** What it prints is printed if the
console can make out the styles in it, and otherwise that is the failure that the command ends
with. -/
structure Reports (impact : Option String) (h h' : Host) (shown : List Printed) (p : Printed)
    (done : Terminal → EStateM.Result Stop Terminal Unit) : Prop where
  printed : faultIn h' p = none → detectors impact ⟨h, shown⟩ = done ⟨h', shown ++ [p]⟩
  illegible : ∀ message, faultIn h' p = some message →
    detectors impact ⟨h, shown⟩ = .error (.failure (.markup message)) ⟨h', shown⟩

theorem reports_of_listed (hlisted : Analyzer.detectors h = .ok ds h') :
    Reports impact h h' shown (catalogue impact ds) (.ok ()) := by
  have hrun := @detectors_of_listed impact _ _ shown _ hlisted
  constructor
  · intro hnone
    rw [hrun, print_of_none hnone]
  · intro message hsome
    rw [hrun, print_of_some hsome]

theorem reports_of_reported (hfailed : Analyzer.detectors h = .error e h')
    (hreported : isReported e = true) :
    Reports impact h h' shown (complaint e) (.error (.exit 1)) := by
  have hrun := @detectors_of_reported impact _ _ shown _ hfailed hreported
  constructor
  · intro hnone
    rw [hrun, bind_of_ok (print_of_none hnone)]
    rfl
  · intro message hsome
    rw [hrun, bind_of_error (print_of_some hsome)]

/-- **The rules are listed, or it is reported why not, unless what was printed has nothing in it to
go through.** Asking for the rules ends in one of the ways of `Ends`. An analyser that answers with
a catalogue has its rules listed, and one that answers with a document that has nothing in it to go
through makes asking fail; so these two are met wherever they can be. The command line prints the
rules that are listed, turns every other failure into a complaint and an exit code, and passes on
that one. -/
theorem rules_listed_or_reported (h : Host) :
    Ends h (Analyzer.detectors h) ∧
      (Answers h →
        (∀ entries, Lists h.room (printed h) entries →
          ∃ ds, Analyzer.detectors h = .ok ds (asked h)) ∧
          ∀ v, Json.read h.room (printed h) = .ok v → Unlistable v →
            Analyzer.detectors h = .error (.notIterable (kindName v)) (asked h)) ∧
      (∀ ds h', Analyzer.detectors h = .ok ds h' →
        ∀ impact shown, Reports impact h h' shown (catalogue impact ds) (.ok ())) ∧
      ∀ e h', Analyzer.detectors h = .error e h' → ∀ impact shown,
        Reports impact h h' shown (complaint e) (.error (.exit 1)) ∨
          (∃ v, Unlistable v ∧ e = .notIterable (kindName v)) ∧
            detectors impact ⟨h, shown⟩ = .error (.failure e) ⟨h', shown⟩ := by
  refine ⟨ends_detectors h, fun hanswers => ⟨fun entries hlists => ?_, fun v hread hbare => ?_⟩,
    fun ds h' hlisted impact shown => reports_of_listed hlisted,
    fun e h' hfailed impact shown => ?_⟩
  · obtain ⟨ds, hds, -⟩ := readCatalogue_of_lists hlists
    rw [detectors_of_answers hanswers, hds]
    exact ⟨ds, rfl⟩
  · rw [detectors_of_answers hanswers, readCatalogue_of_unlistable hread hbare]
    rfl
  · have hends := ends_detectors h
    rw [hfailed] at hends
    -- Every way to fail is reported but the last one, which the command line does not know.
    cases hends with
    | refused hsystem => exact .inl (reports_of_reported hfailed (isReported_of_isSystem hsystem))
    | unusable hvalue => exact .inl (reports_of_reported hfailed (isReported_of_isValue hvalue))
    | silent reason => exact .inl (reports_of_reported hfailed rfl)
    | nested _ _ hdepth => exact .inl (reports_of_reported hfailed (isReported_of_isRuntime hdepth))
    | stray hanswers hread hbare =>
      exact .inr ⟨⟨_, hbare, rfl⟩, detectors_of_unreported hfailed rfl⟩

/-- A world with an analyser that prints a document when it is asked for its rules. -/
def catalogueWorld (v : Json) : Host :=
  { Sync.worldOf [] with
    tool := { Tool.missing with
      presence := .executable
      detectors := { Behaviour.silent with stdout := Utf8.encode (v.render .indented) } } }

/-- Rules come in the order of their names. A number is neither listed nor reported. -/
theorem rules_listed_or_reported_two_outputs :
    let listing := catalogueWorld (.arr [.obj [("check", .str "b")], .obj [("check", .str "a")]])
    let number := catalogueWorld (.int 1)
    (∃ ds, Analyzer.detectors listing = .ok ds (asked listing) ∧
        ds.Pairwise fun a b => a.check ≤ b.check) ∧
      detectors none ⟨number, []⟩ = .error (.failure (.notIterable "int")) ⟨asked number, []⟩ := by
  intro listing number
  have hanswers : ∀ v, Answers (catalogueWorld v) := fun v =>
    ⟨(by decide +kernel : isPassable "slither" = true), rfl, rfl, .inl rfl⟩
  have hread : ∀ v : Json, printed (catalogueWorld v) = v.render .indented →
      v.hasUniqueKeys = true → v.isWritable = true → v.levels ≤ Platform.assuredLevels →
        Json.read (catalogueWorld v).room (printed (catalogueWorld v)) = .ok v := by
    intro v hprinted hkeys hwritable hlevels
    rw [hprinted]
    exact Json.read_render Json.Spacing.isBlank_indented hkeys hwritable hlevels
  constructor
  · have hlists : Lists listing.room (printed listing)
        [⟨0, "b", "", "", "", "", "", "", "", []⟩, ⟨0, "a", "", "", "", "", "", "", "", []⟩] :=
      .items (hread _ (by decide +kernel) (by decide +kernel) (by decide +kernel)
        (by decide +kernel))
        (.cons rfl (.cons rfl .nil))
    obtain ⟨hends, hanswer, -⟩ := rules_listed_or_reported listing
    obtain ⟨ds, hds⟩ := (hanswer (hanswers _)).1 _ hlists
    rw [hds] at hends
    cases hends with
    | listed _ _ harranged => exact ⟨ds, hds, harranged.ordered⟩
  · obtain ⟨-, hanswer, -⟩ := rules_listed_or_reported number
    have hfailed := (hanswer (hanswers _)).2 (.int 1)
      (hread _ (by decide +kernel) (by decide +kernel) (by decide +kernel) (by decide +kernel))
        (.int 1)
    exact detectors_of_unreported hfailed rfl

end SourceDrift.Cli.Analyses
