/-
The numbers that findings are asked for by.

A listing shows each finding with its place among all that are stored, those that it leaves out
counted. Whoever asks for a finding gives that number, and it is looked up among all that are
stored as well. So the two go together, whichever rules are hidden; they would not if either of
them counted visible findings only.

Two command lines are compared here, one that lists and another that shows or opens a finding.
They need not be run in one world. What has to be the same is the list of findings that they find
stored.
-/
import SourceDrift.Proofs.Cli.Runs
import SourceDrift.Proofs.Sync.Agreement
import SourceDrift.Proofs.Text.IntegerText

set_option autoImplicit false

namespace SourceDrift.Cli

open Markup Script

/-! ## Numbers -/

namespace Findings

variable {hidden : List String} {fs : List Finding} {f : Finding} {n : Int} {k : Nat}

theorem numbered?_eq_some : numbered? fs n = some f ↔ ∃ k : Nat, n = k + 1 ∧ fs[k]? = some f := by
  unfold numbered?
  constructor
  · intro h
    split at h
    · next hrange => exact ⟨(n - 1).toNat, by omega, h⟩
    · cases h
  · rintro ⟨k, rfl, hk⟩
    obtain ⟨hlt, -⟩ := List.getElem?_eq_some_iff.1 hk
    rw [if_pos (by omega), Int.add_sub_cancel, Int.toNat_natCast, hk]

theorem numbered?_eq_none : numbered? fs n = none ↔ ¬(1 ≤ n ∧ n ≤ fs.length) := by
  unfold numbered?
  split
  · next hrange =>
    rw [List.getElem?_eq_none_iff]
    omega
  · next hrange => exact iff_of_true rfl hrange

/-- **What is listed under a number is what the number leads to**, unless its rule is hidden. -/
theorem mem_numbered : (k, f) ∈ numbered hidden fs ↔ numbered? fs k = some f ∧
    f.check ∉ hidden := by
  unfold numbered
  rw [List.mem_map, numbered?_eq_some]
  constructor
  · rintro ⟨⟨g, m⟩, hmem, heq⟩
    cases heq
    obtain ⟨hmem, hshown⟩ := List.mem_filter.1 hmem
    obtain ⟨hle, hplace⟩ := List.mem_zipIdx_iff_le_and_getElem?_sub.1 hmem
    exact ⟨⟨k - 1, by omega, hplace⟩, by simpa using hshown⟩
  · rintro ⟨⟨i, hi, hplace⟩, hshown⟩
    refine ⟨(f, k), List.mem_filter.2 ⟨?_, by simpa using hshown⟩, rfl⟩
    obtain rfl : k = i + 1 := by omega
    exact List.mem_zipIdx_iff_le_and_getElem?_sub.2 ⟨by omega, hplace⟩

/-- A listing leaves hidden findings out and keeps the others in order. -/
theorem map_snd_numbered (hidden : List String) (fs : List Finding) :
    (numbered hidden fs).map Prod.snd = fs.filter fun f => !hidden.contains f.check := by
  unfold numbered
  rw [List.map_map]
  show ((fs.zipIdx 1).filter ((fun f : Finding => !hidden.contains f.check) ∘ Prod.fst)).map
    Prod.fst = _
  rw [← List.filter_map, List.zipIdx_map_fst]

/-- The numbers of a listing go up. -/
theorem pairwise_numbered (hidden : List String) (fs : List Finding) :
    (numbered hidden fs).Pairwise fun a b => a.1 < b.1 := by
  unfold numbered
  rw [List.pairwise_map]
  refine List.Pairwise.sublist List.filter_sublist ?_
  have hnumbers : ((fs.zipIdx 1).map Prod.snd).Pairwise (· < ·) := by
    rw [List.zipIdx_map_snd]
    exact List.pairwise_lt_range'
  exact List.pairwise_map.1 hnumbers

end Findings

/-! ## Typing a number -/

variable {text : String} {k : Nat} {n : Int}

/-- A single argument that is an integer, and looks like no option, is read for a command that takes
one. -/
theorem arguments_typed {form : Form} (harity : form.arity = .integer)
    (hplain : Arguments.isOption text = false) (hread : IntegerText.read text = .ok n) :
    Command.arguments form [text] = .ok ⟨[], [text]⟩ := by
  have hdashes : text ≠ "--" := by
    rintro rfl
    exact absurd hplain (by decide)
  have hsort : Arguments.sort form.options true [text] = .ok ⟨[], [text]⟩ := by
    rw [Arguments.sort, if_neg hdashes, if_neg (by rw [hplain]; decide), if_pos rfl]
    rfl
  have hinteger : Command.readInteger text = .ok n := by rw [Command.readInteger, hread]
  unfold Command.arguments
  rw [hsort]
  dsimp only
  rw [if_neg (show ¬Arguments.has ⟨[], [text]⟩ "help" = true from Bool.false_ne_true), harity]
  show (do Command.checkRest .integer [text]; Except.ok (Arguments.mk [] [text])) = _
  rw [Command.checkRest, hinteger]
  rfl

theorem isOption_toString (k : Nat) : Arguments.isOption (toString k) = false := by
  unfold Arguments.isOption
  rw [IntegerText.toList_toString]
  split
  · next heq =>
    have hsign : '-' ∈ Numeral.digits k := by rw [heq]; exact List.mem_cons_self
    exact absurd (Numeral.isDigit_of_mem_digits hsign) (by decide)
  · rfl

/-- **The number that is shown can be typed** behind the name of a command. -/
theorem asks_typed (hk : Numeral.isShowable k = true) (h : Host) :
    Asks ["findings", "show", toString k] h (.show k none) h ∧
      Asks ["findings", "goto", toString k] h (.goto k 0 none) h := by
  have hread := IntegerText.read_toString hk
  -- The digits of a number are read as that number, and no option begins with a digit.
  have hindex : Command.index ⟨[], [toString k]⟩ = k := by
    show Command.integerOf (toString k) = k
    rw [Command.integerOf, hread]
  have hprogram : ∀ rest, Command.readProgram ("findings" :: rest) =
      .ok (⟨[], "findings" :: rest⟩, "findings", rest) := fun _ => rfl
  have hshow := arguments_typed (show Form.show_.arity = .integer from rfl)
    (isOption_toString k) hread
  have hgoto := arguments_typed (show Form.goto.arity = .integer from rfl)
    (isOption_toString k) hread
  constructor
  · refine .plain (hprogram _) rfl ?_
    show (do
      let a ← Command.arguments .show_ [toString k]
      Except.ok (Command.show (Command.index a) (Command.workspace a))) = _
    rw [hshow, ← hindex]
    rfl
  · refine .plain (hprogram _) rfl ?_
    show (do
      let a ← Command.arguments .goto [toString k]
      Except.ok (Command.goto (Command.index a) _ (Command.workspace a))) = _
    rw [hgoto, ← hindex]
    rfl

namespace Findings

/-! ## What is printed -/

variable {args : List String} {command : Command} {h h' : Host} {workspace : Option String}
  {all : Bool} {o : Opened} {t t' : Terminal} {f : Finding} {n : Int}

/-- The findings that a listing shows, with their numbers. -/
def listed (all : Bool) (o : Opened) : List (Nat × Finding) :=
  numbered (if all then [] else o.config.hidden) o.findings

/-- Whether the cells of a row are those of a finding with a number, each under its heading. -/
structure RowOf (cells : List String) (entry : Nat × Finding) : Prop where
  width : cells.length = columns.length
  number : cells[columns.idxOf "#"]? = some (toString entry.1)
  rule : cells[columns.idxOf "Check"]? = some entry.2.check
  place : cells[columns.idxOf "Location"]? = some entry.2.location

theorem rowOf_row (entry : Nat × Finding) : RowOf (row entry) entry := by
  have hnumber : columns.idxOf "#" = 0 := by decide
  have hrule : columns.idxOf "Check" = 3 := by decide
  have hplace : columns.idxOf "Location" = 4 := by decide
  obtain ⟨k, f⟩ := entry
  constructor
  · rw [row, columns]
    simp only [List.length_cons, List.length_nil]
  · rw [hnumber, row]
    rfl
  · rw [hrule, row]
    rfl
  · rw [hplace, row]
    rfl

/-- **A listing has a row for each of the findings that it shows**, under the number of the
finding. -/
theorem forall₂_rowOf_rows (all : Bool) (o : Opened) :
    List.Forall₂ RowOf (rows o.config.hidden all o.findings) (listed all o) := by
  have hrows : rows o.config.hidden all o.findings = (listed all o).map row := rfl
  rw [hrows, List.forall₂_map_left_iff, List.forall₂_same]
  exact fun entry _ => rowOf_row entry

/-- What a listing prints: the rows of the findings that it shows, or a line that there is nothing
to list. -/
def listing (all : Bool) (o : Opened) : Printed :=
  if o.findings = [] then .markup (styled Theme.dim s!"No findings stored for {o.root.toString}")
  else .table s!"Findings in {o.root.name}" columns (rows o.config.hidden all o.findings)

/-- What is printed of a finding that is shown. -/
def details (f : Finding) : List Printed :=
  f.report.map .plain ++
    .markup (styled Theme.dim
      s!"{f.check} | impact {f.impact} | confidence {f.confidence} | {f.sync.label}") ::
    (f.elements.zipIdx.flatMap fun (e, i) => elementLines f i e).map .markup

/-- What is printed for a number that no finding has. -/
def refusal (n : Int) (count : Nat) : Printed :=
  .markup (styled Theme.error s!"No finding #{n} ({count} stored)")

theorem pick_of_some {fs : List Finding} (hf : numbered? fs n = some f) (t : Terminal) :
    pick fs n t = .ok f t := by
  unfold pick
  rw [hf]
  rfl

theorem pick_of_none {fs : List Finding} (hnone : numbered? fs n = none) (t : Terminal) :
    pick fs n t = (do print (refusal n fs.length); exit 1) t := by
  unfold pick
  rw [hnone]
  rfl

theorem list_of_open (hopen : openWorkspace workspace t = .ok o t') :
    list workspace all t = printAll [listing all o] t' := by
  unfold list listing
  rw [bind_of_ok hopen, printAll_singleton]
  by_cases hempty : o.findings = []
  · rw [if_pos hempty, if_pos (List.isEmpty_iff.2 hempty)]
    rfl
  · rw [if_neg hempty, if_neg (mt List.isEmpty_iff.1 hempty)]

theorem show_of_open (hopen : openWorkspace workspace t = .ok o t')
    (hf : numbered? o.findings n = some f) :
    show_ n workspace t = printAll (details f) t' := by
  unfold show_
  rw [bind_of_ok hopen, bind_of_ok (pick_of_some hf t'), plainLines_eq, markupLines_eq, details,
    printAll_append]
  rfl

/-- How a command that is asked for a finding ends in a world. -/
inductive Answers (h : Host) (o : Opened) (f : Finding) : Command → Ending → Prop
  /-- The finding is shown. -/
  | shown {n : Int} {workspace : Option String} :
      Answers h o f (.show n workspace) (endingOn h (details f) 0)
  /-- It is told where an element of it can be opened. -/
  | told {n element : Int} {workspace : Option String} {target : Target} {line : String} :
      f.target? o.config.collapse o.root element = some target → targetLine target = .ok line →
        Answers h o f (.goto n element workspace) ⟨0, none, [.plain line]⟩
  /-- It cannot be told, as a number in it is too long. -/
  | unshowable {n element : Int} {workspace : Option String} {target : Target} {e : Failure} :
      f.target? o.config.collapse o.root element = some target → targetLine target = .error e →
        Answers h o f (.goto n element workspace) ⟨1, some e, []⟩
  /-- It cannot be opened. -/
  | nowhere {n element : Int} {workspace : Option String} :
      f.target? o.config.collapse o.root element = none →
        Answers h o f (.goto n element workspace)
          (endingOn h [.markup (styled Theme.error s!"Cannot navigate to finding #{n}")] 1)

/-! ## Picking -/

/-- Whether a command asks for the finding with a number. -/
inductive AsksFor : Command → Int → Prop
  | shown (n : Int) (workspace : Option String) : AsksFor (.show n workspace) n
  | told (n element : Int) (workspace : Option String) : AsksFor (.goto n element workspace) n

/-- Whether a run picks a finding: its number leads to the finding, and it ends as it does for that
finding. -/
structure Picked (h : Host) (o : Opened) (command : Command) (n : Int) (f : Finding) (e : Ending) :
    Prop where
  pick : ∀ t, pick o.findings n t = .ok f t
  answers : Answers h o f command e

theorem run_list (hopens : Opens args h (.list workspace all) o h') :
    run args h = (endingOn h' [listing all o] 0, h') := by
  obtain ⟨h₁, hrun, hopen, -⟩ := run_of_opens hopens
  rw [hrun, ← endingOf_printAll]
  exact congrArg endingOf (list_of_open hopen)

/-- **A number that leads to a finding picks it**, whatever is to be done with it. -/
theorem run_of_some (hopens : Opens args h command o h') (hn : AsksFor command n)
    (hf : numbered? o.findings n = some f) :
    ∃ e, run args h = (e, h') ∧ Picked h' o command n f e := by
  obtain ⟨h₁, hrun, hopen, -⟩ := run_of_opens hopens
  have hpick := pick_of_some hf
  cases hn with
  | shown n workspace =>
    refine ⟨_, ?_, hpick, .shown⟩
    rw [hrun, ← endingOf_printAll]
    exact congrArg endingOf (show_of_open hopen hf)
  | told n element workspace =>
    have hgoto : runCommand (.goto n element workspace) ⟨h₁, []⟩ = _ :=
      (bind_of_ok hopen).trans (bind_of_ok (hpick _))
    rw [hrun, hgoto]
    cases htarget : f.target? o.config.collapse o.root element with
    | none => exact ⟨_, endingOf_print_exit h' _ 1, hpick, .nowhere htarget⟩
    | some target =>
      dsimp only
      cases hline : targetLine target with
      | ok line => exact ⟨_, rfl, hpick, .told htarget hline⟩
      | error e => exact ⟨_, rfl, hpick, .unshowable htarget hline⟩

/-- **A number that leads to no finding is refused.** -/
theorem run_of_none (hopens : Opens args h command o h') (hn : AsksFor command n)
    (hnone : numbered? o.findings n = none) :
    run args h = (endingOn h' [refusal n o.findings.length] 1, h') := by
  obtain ⟨h₁, hrun, hopen, -⟩ := run_of_opens hopens
  -- Whatever is to be done with the finding is not done, since there is none.
  obtain ⟨e, t, hpick, hends⟩ : ∃ e t, pick o.findings n ⟨h', []⟩ = .error e t ∧
      endingOf (.error e t) = (endingOn h' [refusal n o.findings.length] 1, h') := by
    rw [pick_of_none hnone, ← endingOf_print_exit]
    cases hp : faultIn h' (refusal n o.findings.length) with
    | none => exact ⟨_, _, bind_of_ok (print_of_none hp),
        by rw [bind_of_ok (print_of_none hp)]; rfl⟩
    | some message =>
      exact ⟨_, _, bind_of_error (print_of_some hp), by rw [bind_of_error (print_of_some hp)]⟩
  have hrefused : runCommand command ⟨h₁, []⟩ = .error e t := by
    cases hn with
    | shown | told => exact (bind_of_ok hopen).trans (bind_of_error hpick)
  rw [hrun, hrefused, hends]

/-- How a run for a number goes together with a listing. -/
structure Follows (all : Bool) (o : Opened) (n : Int) (h : Host) (o' : Opened) (command : Command)
    (e : Ending) : Prop where
  /-- The number of a row picks the finding of the row. -/
  row : ∀ k f, (k, f) ∈ listed all o → n = k → Picked h o' command n f e
  /-- A number that no stored finding has is refused. -/
  beyond : ¬(1 ≤ n ∧ n ≤ o.findings.length) →
    e = endingOn h [refusal n o.findings.length] 1 ∧ e.exitCode = 1
  /-- A number between those of the rows picks a finding whose rule is hidden. -/
  between : 1 ≤ n → n ≤ o.findings.length → (∀ p ∈ listed all o, n ≠ p.1) →
    all = false ∧ ∃ f, f.check ∈ o.config.hidden ∧ Picked h o' command n f e

theorem follows_of_some {o' : Opened} {e : Ending} (hsame : o'.findings = o.findings)
    (hf : numbered? o'.findings n = some f) (hpicked : Picked h o' command n f e) :
    Follows all o n h o' command e := by
  rw [hsame] at hf
  refine ⟨?_, fun hrange => ?_, fun _ _ hrows => ?_⟩
  · rintro k g hmem rfl
    obtain rfl := Option.some.inj ((mem_numbered.1 hmem).1.symm.trans hf)
    exact hpicked
  · rw [numbered?_eq_none.2 hrange] at hf
    cases hf
  · obtain ⟨i, rfl, -⟩ := numbered?_eq_some.1 hf
    have hhidden : f.check ∈ if all then [] else o.config.hidden := by
      refine Decidable.byContradiction fun hshown => ?_
      exact hrows (i + 1, f) (mem_numbered.2 ⟨hf, hshown⟩) rfl
    cases all with
    | true => exact absurd hhidden List.not_mem_nil
    | false => exact ⟨rfl, f, hhidden, hpicked⟩

theorem follows_of_none {o' : Opened} (hsame : o'.findings = o.findings)
    (hnone : numbered? o'.findings n = none) :
    Follows all o n h o' command (endingOn h [refusal n o'.findings.length] 1) := by
  rw [hsame] at hnone
  refine ⟨?_, fun _ => ⟨by rw [hsame], exitCode_endingOn_one _ _⟩, fun hfrom hto _ => ?_⟩
  · rintro k f hmem rfl
    cases hnone.symm.trans (mem_numbered.1 hmem).1
  · exact absurd ⟨hfrom, hto⟩ (numbered?_eq_none.1 hnone)

/-- **The number that is shown is the number to ask for.** A listing prints a row for each of the
findings that are visible, or for each that is stored if all are asked for, one for one and in
order, each under its number, and the numbers go up. Any run that asks for a finding by a number,
to show it or to open it, and finds the same findings stored goes together with that listing: the
number of a row picks the finding of the row, a number that is not between one and the count of the
stored findings is refused with exit code 1, and a number between them that has no row picks a
finding whose rule is hidden. -/
theorem number_shown_is_number_picked (hlist : Opens args h (.list workspace all) o h') :
    run args h = (endingOn h' [listing all o] 0, h') ∧
      List.Forall₂ RowOf (rows o.config.hidden all o.findings) (listed all o) ∧
      (listed all o).map Prod.snd =
        (if all then Store.get o.root ⟨o.store, h'⟩
          else Store.visible o.root o.config.hidden ⟨o.store, h'⟩) ∧
      ((listed all o).Pairwise fun a b => a.1 < b.1) ∧
      ∀ args' g command n o' g', Opens args' g command o' g' → AsksFor command n →
        o'.findings = o.findings →
          ∃ e, run args' g = (e, g') ∧ Follows all o n g' o' command e := by
  obtain ⟨-, -, -, hfindings⟩ := run_of_opens hlist
  refine ⟨run_list hlist, forall₂_rowOf_rows all o, ?_, pairwise_numbered _ _,
    fun args' g command n o' g' hopens hn hsame => ?_⟩
  · rw [listed, map_snd_numbered, Store.visible, ← hfindings]
    cases all with
    | true => simp
    | false => rfl
  · cases hnumber : numbered? o'.findings n with
    | none => exact ⟨_, run_of_none hopens hn hnumber, follows_of_none hsame hnumber⟩
    | some f =>
      obtain ⟨e, hrun, hpicked⟩ := run_of_some hopens hn hnumber
      exact ⟨e, hrun, follows_of_some hsame hnumber hpicked⟩

/-- The findings of three rules, as they are stored. -/
def gapText : String :=
  "[\x7b\"check\":\"a\"\x7d,\x7b\"check\":\"b\"\x7d,\x7b\"check\":\"c\"\x7d]"

/-- A world in whose workspace they are stored, and the rule of the second is hidden. -/
def gapWorld : Host :=
  Sync.worldOf [(["w", ".slither"], .directory),
    (["w", ".slither", "config.json"],
      .file (Utf8.encode "\x7b\"hidden_detectors\":[\"b\"]\x7d")),
    (["w", ".slither", "analysis-results.json"], .file (Utf8.encode gapText))]

/-- What is opened there. -/
def gapOpened : Option (Opened × Terminal) :=
  match openWorkspace none ⟨gapWorld, []⟩ with
  | .ok o t => some (o, t)
  | .error _ _ => none

/-- The rows have the numbers one and three, and three findings are stored. -/
theorem openWorkspace_gapWorld : ∃ o t, openWorkspace none ⟨gapWorld, []⟩ = .ok o t ∧
    (listed false o).map (fun p => (p.1, p.2.check)) = [(1, "a"), (3, "c")] ∧
      o.findings.length = 3 := by
  have hshown : (gapOpened.map fun p =>
      ((listed false p.1).map fun q => (q.1, q.2.check), p.1.findings.length)) =
        some ([(1, "a"), (3, "c")], 3) := by
    decide +kernel
  unfold gapOpened at hshown
  cases hopen : openWorkspace none ⟨gapWorld, []⟩ with
  | error e t =>
    rw [hopen] at hshown
    cases hshown
  | ok o t =>
    rw [hopen] at hshown
    exact ⟨o, t, rfl, Prod.mk.inj (Option.some.inj hshown)⟩

/-- Three shows the last finding, two opens the hidden one, and there is no fourth. -/
theorem number_shown_is_number_picked_gap :
    ∃ o h', Opens ["findings", "list"] gapWorld (.list none false) o h' ∧
      (listed false o).map (fun p => (p.1, p.2.check)) = [(1, "a"), (3, "c")] ∧
      run ["findings", "list"] gapWorld = (endingOn h' [listing false o] 0, h') ∧
      (∃ e f, run ["findings", "show", "3"] gapWorld = (e, h') ∧ f.check = "c" ∧
        Picked h' o (.show 3 none) 3 f e) ∧
      (∃ e f, run ["findings", "goto", "2"] gapWorld = (e, h') ∧ f.check ∈ o.config.hidden ∧
        Picked h' o (.goto 2 0 none) 2 f e) ∧
      run ["findings", "show", "4"] gapWorld =
        (endingOn h' [refusal 4 o.findings.length] 1, h') := by
  obtain ⟨o, t, hopen, hrows, hcount⟩ := openWorkspace_gapWorld
  have hopens : ∀ {args command}, Asks args gapWorld command gapWorld → command.named = none →
      Opens args gapWorld command o t.host :=
    fun hasks hnamed => ⟨gapWorld, t, hasks, hnamed ▸ hopen, rfl⟩
  have hshow : ∀ k : Nat, Numeral.isShowable k = true →
      Opens ["findings", "show", toString k] gapWorld (.show k none) o t.host :=
    fun k hk => hopens (asks_typed hk gapWorld).1 rfl
  have hgoto : ∀ k : Nat, Numeral.isShowable k = true →
      Opens ["findings", "goto", toString k] gapWorld (.goto k 0 none) o t.host :=
    fun k hk => hopens (asks_typed hk gapWorld).2 rfl
  have hlist : Opens ["findings", "list"] gapWorld (.list none false) o t.host :=
    hopens (.plain rfl rfl rfl) rfl
  obtain ⟨hrun, -, -, -, hpicks⟩ := number_shown_is_number_picked hlist
  refine ⟨o, t.host, hlist, hrows, hrun, ?three, ?two, ?four⟩
  case three =>
    obtain ⟨e, hthree, hfollows⟩ :=
      hpicks _ _ _ _ _ _ (hshow 3 (by decide +kernel)) (.shown 3 none) rfl
    have hlast : (3, "c") ∈ (listed false o).map fun p => (p.1, p.2.check) := by
      rw [hrows]
      decide
    obtain ⟨⟨_, f⟩, hmem, heq⟩ := List.mem_map.1 hlast
    obtain ⟨rfl, hcheck⟩ := Prod.mk.inj heq
    exact ⟨e, f, hthree, hcheck, hfollows.row 3 f hmem rfl⟩
  case two =>
    obtain ⟨e, htwo, hfollows⟩ :=
      hpicks _ _ _ _ _ _ (hgoto 2 (by decide +kernel)) (.told 2 0 none) rfl
    have hno : ∀ p ∈ listed false o, (2 : Int) ≠ p.1 := by
      intro p hp heq
      have hmem := List.mem_map_of_mem (f := fun p : Nat × Finding => (p.1, p.2.check)) hp
      rw [hrows] at hmem
      simp only [List.mem_cons, Prod.mk.injEq, List.not_mem_nil, or_false] at hmem
      omega
    obtain ⟨-, f, hhidden, hpicked⟩ := hfollows.between (by decide) (by rw [hcount]; decide) hno
    exact ⟨e, f, htwo, hhidden, hpicked⟩
  case four =>
    obtain ⟨e, hfour, hfollows⟩ :=
      hpicks _ _ _ _ _ _ (hshow 4 (by decide +kernel)) (.shown 4 none) rfl
    rw [(hfollows.beyond (by rw [hcount]; decide)).1] at hfour
    exact hfour

end Findings
end SourceDrift.Cli
