/-
Command lines, and what comes of a run.

A command line is read before its command does anything, and the log file is made in between if
there is to be one. A run of the program then ends as its command does, in a world where nothing
has been printed yet. A command on stored findings opens its workspace first, which prints nothing
either; so what such a run prints is what the command makes of the workspace.
-/
import SourceDrift.Cli.Program
import SourceDrift.Proofs.Cli.Printing

set_option autoImplicit false

namespace SourceDrift.Cli

open Script

variable {args : List String} {command : Command} {h h' : Host} {workspace : Option String}
  {o : Opened} {t t' : Terminal}

/-! ## What prints nothing -/

theorem printed_onHost {α : Type} {x : Action α} {a : α} (hrun : onHost x t = .ok a t') :
    t'.printed = t.printed := by
  unfold onHost at hrun
  cases hx : x t.host <;> rw [hx] at hrun <;> cases hrun
  rfl

theorem printed_onStore {α : Type} {store : Store} {x : StoreAction α} {p : α × Store}
    (hrun : onStore store x t = .ok p t') : t'.printed = t.printed := by
  unfold onStore at hrun
  cases hx : x ⟨store, t.host⟩ <;> rw [hx] at hrun <;> cases hrun
  rfl

/-! ## Opening a workspace -/

/-- Opening a workspace prints nothing, and the findings are those that its store has then. -/
theorem openWorkspace_eq_ok (hopen : openWorkspace workspace t = .ok o t') :
    t'.printed = t.printed ∧ o.findings = Store.get o.root ⟨o.store, t'.host⟩ := by
  unfold openWorkspace workspaceRoot at hopen
  obtain ⟨root, t₁, hroot, hopen⟩ := bind_eq_ok.1 hopen
  obtain ⟨config, t₂, hconfig, hopen⟩ := bind_eq_ok.1 hopen
  obtain ⟨⟨_, store⟩, t₃, hstore, hopen⟩ := bind_eq_ok.1 hopen
  cases hopen
  exact ⟨(printed_onStore hstore).trans ((printed_onHost hconfig).trans (printed_onHost hroot)),
    rfl⟩

/-- The workspace that a command on stored findings names. -/
def Command.named : Command → Option String
  | .list workspace _ | .show _ workspace | .validate workspace _ | .goto _ _ workspace
  | .diagnostics workspace | .clear workspace => workspace
  | .analyze _ _ | .detectors _ => none

/-! ## Running -/

/-- Whether a command line asks for a command, and which world the command is run in. -/
inductive Asks (args : List String) (h : Host) (command : Command) : Host → Prop
  | plain {options : Arguments} {name : String} {rest : List String} :
      Command.readProgram args = .ok (options, name, rest) → options.value? "log-file" = none →
        Command.readCommand name rest = .ok command → Asks args h command h
  /-- The log file has been made. -/
  | logged {options : Arguments} {name log : String} {rest : List String} {h' : Host} :
      Command.readProgram args = .ok (options, name, rest) → options.value? "log-file" = some log →
        openLog (Path.ofString log) h = .ok () h' →
          Command.readCommand name rest = .ok command → Asks args h command h'

/-- How a run of the program ends if this comes of its script. -/
def endingOf : EStateM.Result Stop Terminal Unit → Ending × Host
  | .ok () t => (⟨0, none, t.printed⟩, t.host)
  | .error (.exit code) t => (⟨code, none, t.printed⟩, t.host)
  | .error (.failure e) t => (⟨1, some e, t.printed⟩, t.host)

/-- How a run ends that has several things to print in a world, and an exit code for when they are
printed. The console may not make out the styles in one of them. -/
def endingOn (h : Host) (ps : List Printed) (code : Nat) : Ending :=
  match faultOf h ps with
  | none => ⟨code, none, ps⟩
  | some message => ⟨1, some (.markup message), shownOf h ps⟩

theorem endingOf_printAll (h : Host) (ps : List Printed) :
    endingOf (printAll ps ⟨h, []⟩) = (endingOn h ps 0, h) := by
  unfold endingOn
  cases hps : faultOf h ps with
  | none =>
    rw [printAll_of_none hps]
    rfl
  | some message =>
    rw [printAll_of_some hps]
    rfl

theorem endingOf_print_exit (h : Host) (p : Printed) (code : Nat) :
    endingOf ((do print p; exit code) ⟨h, []⟩) = (endingOn h [p] code, h) := by
  unfold endingOn
  cases hp : faultIn h p with
  | none =>
    rw [bind_of_ok (print_of_none hp), faultOf_cons_of_none hp]
    rfl
  | some message =>
    rw [bind_of_error (print_of_some hp), faultOf_cons_of_some hp, shownOf_cons_of_some hp]
    rfl

/-- A failure has the exit code one as well. -/
theorem exitCode_endingOn_one (h : Host) (ps : List Printed) : (endingOn h ps 1).exitCode = 1 := by
  unfold endingOn
  split
  · rfl
  · rfl

/-- **A run ends as the command does that it is asked for.** -/
theorem run_of_asks (hasks : Asks args h command h') :
    run args h = endingOf (runCommand command ⟨h', []⟩) := by
  have hrun : run args h = endingOf (script args ⟨h, []⟩) := rfl
  rw [hrun]
  unfold script
  cases hasks with
  | plain hprogram hlog hcommand =>
    rw [hprogram]
    dsimp only
    rw [hlog, hcommand]
  | @logged _ _ log _ _ hprogram hlog hmade hcommand =>
    rw [hprogram]
    dsimp only
    rw [hlog, hcommand]
    have hopened : onHost (openLog (Path.ofString log)) ⟨h, []⟩ = .ok () ⟨h', []⟩ := by
      rw [onHost, hmade]
    exact congrArg endingOf (bind_of_ok hopened)

/-- Whether a command line asks for a command on a workspace that can be opened, what is opened,
and the world after that. -/
def Opens (args : List String) (h : Host) (command : Command) (o : Opened) (h' : Host) : Prop :=
  ∃ h₁ t, Asks args h command h₁ ∧ openWorkspace command.named ⟨h₁, []⟩ = .ok o t ∧ t.host = h'

theorem run_of_opens (hopens : Opens args h command o h') :
    ∃ h₁, run args h = endingOf (runCommand command ⟨h₁, []⟩) ∧
      openWorkspace command.named ⟨h₁, []⟩ = .ok o ⟨h', []⟩ ∧
        o.findings = Store.get o.root ⟨o.store, h'⟩ := by
  obtain ⟨h₁, ⟨_, printed⟩, hasks, hopen, rfl⟩ := hopens
  obtain ⟨hprinted, hfindings⟩ := openWorkspace_eq_ok hopen
  obtain rfl : printed = [] := hprinted
  exact ⟨h₁, run_of_asks hasks, hopen, hfindings⟩

end SourceDrift.Cli
