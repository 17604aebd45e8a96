/-
What gets printed.

A console that cannot make out the styles in a text prints nothing of it, and the command ends
there. Commands print their texts one after the other. What comes of that is known from the texts
alone: all of them are printed if nothing is wrong with any of them, and otherwise those that come
before the first that something is wrong with. Texts that stand for themselves are always printed.
-/
import SourceDrift.Cli.Findings
import SourceDrift.Proofs.Host.Actions

set_option autoImplicit false

namespace SourceDrift.Cli

open SourceDrift.Action

/-- What is wrong with the styles in something that is to be printed, if anything. -/
def faultIn (h : Host) (p : Printed) : Option String :=
  p.styledTexts.findSome? h.platform.markupFault

/-- What is wrong with the first of several things that something is wrong with. -/
def faultOf (h : Host) (ps : List Printed) : Option String := ps.findSome? (faultIn h)

/-- What gets printed of several things. -/
def shownOf (h : Host) (ps : List Printed) : List Printed :=
  ps.takeWhile fun p => (faultIn h p).isNone

variable {h : Host} {p : Printed} {ps : List Printed} {t : Terminal} {message : String}

theorem faultOf_cons_of_none (hp : faultIn h p = none) : faultOf h (p :: ps) = faultOf h ps := by
  unfold faultOf
  rw [List.findSome?_cons, hp]

theorem faultOf_cons_of_some (hp : faultIn h p = some message) :
    faultOf h (p :: ps) = some message := by
  unfold faultOf
  rw [List.findSome?_cons, hp]

theorem shownOf_cons_of_none (hp : faultIn h p = none) :
    shownOf h (p :: ps) = p :: shownOf h ps := by
  unfold shownOf
  rw [List.takeWhile_cons_of_pos (by rw [hp]; rfl)]

theorem shownOf_cons_of_some (hp : faultIn h p = some message) : shownOf h (p :: ps) = [] := by
  unfold shownOf
  rw [List.takeWhile_cons_of_neg (by rw [hp]; exact Bool.false_ne_true)]

namespace Script

theorem print_of_none (hp : faultIn t.host p = none) :
    print p t = .ok () { t with printed := t.printed ++ [p] } := by
  unfold faultIn at hp
  unfold print
  rw [hp]

theorem print_of_some (hp : faultIn t.host p = some message) :
    print p t = .error (.failure (.markup message)) t := by
  unfold faultIn at hp
  unfold print
  rw [hp]

/-- Prints several things one after the other. -/
def printAll : List Printed → Script Unit
  | [] => pure ()
  | p :: rest => do
    print p
    printAll rest

theorem printAll_singleton (p : Printed) : printAll [p] = print p := bind_pure_unit

theorem printAll_append (ps qs : List Printed) :
    printAll (ps ++ qs) = (do printAll ps; printAll qs) := by
  induction ps with
  | nil => rfl
  | cons p ps ih =>
    rw [List.cons_append, printAll, printAll, ih, bind_assoc]

theorem plainLines_eq (lines : List String) : plainLines lines = printAll (lines.map .plain) := by
  induction lines with
  | nil => rfl
  | cons line rest ih =>
    rw [plainLines, ih]
    rfl

theorem markupLines_eq (lines : List String) :
    Findings.markupLines lines = printAll (lines.map .markup) := by
  induction lines with
  | nil => rfl
  | cons line rest ih =>
    rw [Findings.markupLines, ih]
    rfl

/-- **Things that nothing is wrong with are printed.** -/
theorem printAll_of_none (hps : faultOf t.host ps = none) :
    printAll ps t = .ok () { t with printed := t.printed ++ ps } := by
  induction ps generalizing t with
  | nil =>
    rw [List.append_nil]
    rfl
  | cons p ps ih =>
    cases hp : faultIn t.host p with
    | some message =>
      rw [faultOf_cons_of_some hp] at hps
      cases hps
    | none =>
      rw [faultOf_cons_of_none hp] at hps
      rw [printAll, bind_of_ok (print_of_none hp)]
      refine (@ih { t with printed := t.printed ++ [p] } hps).trans ?_
      rw [List.append_assoc, List.singleton_append]

/-- **The first thing that something is wrong with ends the command**, and those before it have been
printed. -/
theorem printAll_of_some (hps : faultOf t.host ps = some message) :
    printAll ps t =
      .error (.failure (.markup message)) { t with printed := t.printed ++ shownOf t.host ps } := by
  induction ps generalizing t with
  | nil => cases hps
  | cons p ps ih =>
    cases hp : faultIn t.host p with
    | some fault =>
      rw [faultOf_cons_of_some hp] at hps
      cases hps
      rw [printAll, bind_of_error (print_of_some hp), shownOf_cons_of_some hp, List.append_nil]
    | none =>
      rw [faultOf_cons_of_none hp] at hps
      rw [printAll, bind_of_ok (print_of_none hp), shownOf_cons_of_none hp]
      refine (@ih { t with printed := t.printed ++ [p] } hps).trans ?_
      rw [List.append_assoc, List.singleton_append]

end Script
end SourceDrift.Cli
