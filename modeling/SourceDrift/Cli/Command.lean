/-
Commands, and the command lines that ask for them.

A command line is read from the outside in: options of the program, a command, and
the command's own options and arguments; the commands on stored findings form a
group. Asking for help ends the reading wherever it stands. A path that no file
system takes is refused here, before a command sees it.
-/
import SourceDrift.Cli.Arguments
import SourceDrift.Text.IntegerText

set_option autoImplicit false

namespace SourceDrift.Cli

/-- What can be asked for. -/
inductive Command where
  | analyze (workspaces : List String) (quiet : Bool)
  | detectors (impact : Option String)
  | list (workspace : Option String) (all : Bool)
  | show (index : Int) (workspace : Option String)
  | validate (workspace changed : Option String)
  | goto (index element : Int) (workspace : Option String)
  | diagnostics (workspace : Option String)
  | clear (workspace : Option String)

/-- The paths that a command works on; the current directory is not among them. -/
def Command.paths : Command → List String
  | .analyze workspaces _ => workspaces
  | .detectors _ => []
  | .validate workspace changed => workspace.toList ++ changed.toList
  | .list workspace _ | .show _ workspace | .goto _ _ workspace | .diagnostics workspace
  | .clear workspace => workspace.toList

/-- How a command line can end before its command runs. -/
inductive Refusal where
  | usage (e : UsageError)
  | help

/-- The arguments that a command takes beside its options. -/
inductive Arity where
  | none
  | integer
  | paths
  deriving DecidableEq

/-- The form of a command's line. -/
structure Form where
  options : List OptionSpec
  arity : Arity

namespace Form

/-- The option that asks for help. -/
def help : OptionSpec := ⟨"help", .none, .flag⟩

/-- The option that names a workspace. -/
def workspace : OptionSpec := ⟨"workspace", some 'w', .path⟩

/-- The options of the program itself. -/
def program : List OptionSpec :=
  [help, ⟨"verbose", some 'v', .flag⟩, ⟨"log-file", .none, .path⟩,
    ⟨"install-completion", .none, .flag⟩, ⟨"show-completion", .none, .flag⟩]

/-- The options that ask for something else than a command. Completion is a matter of
the shell, and nothing of it is done here. -/
def informative : List String := ["help", "install-completion", "show-completion"]

/-- The form of the analysis. -/
def analyze : Form := ⟨[help, ⟨"quiet", some 'q', .flag⟩], .paths⟩

/-- The form of the catalogue of rules. -/
def detectors : Form := ⟨[help, ⟨"impact", some 'i', .text⟩], .none⟩

/-- The form of the listing. -/
def list : Form := ⟨[help, workspace, ⟨"all", some 'a', .flag⟩], .none⟩

/-- The form of showing a finding. -/
def show_ : Form := ⟨[help, workspace], .integer⟩

/-- The form of the validation. -/
def validate : Form := ⟨[help, workspace, ⟨"file", some 'f', .path⟩], .none⟩

/-- The form of opening a finding. -/
def goto : Form := ⟨[help, workspace, ⟨"element", some 'e', .integer⟩], .integer⟩

/-- The form of commands that only need a workspace. -/
def plain : Form := ⟨[help, workspace], .none⟩

end Form

namespace Command

/-! ## Values -/

/-- Checks a text that is to be used as a path. -/
def checkPath (s : String) : Except Refusal Unit :=
  if s.toList.contains '\x00' then .error (.usage (.invalidPath s)) else .ok ()

/-- Reads an integer. -/
def readInteger (s : String) : Except Refusal Int :=
  match IntegerText.read s with
  | .ok n => .ok n
  | .error _ => .error (.usage (.invalidInteger s))

/-- The integer that a text has been checked to denote. -/
def integerOf (s : String) : Int :=
  match IntegerText.read s with
  | .ok n => n
  | .error _ => 0

/-- Checks the value of an option. -/
def checkValue (a : Arguments) (o : OptionSpec) : Except Refusal Unit :=
  match o.kind with
  | .flag => .ok ()
  | .text => .ok ()
  | .path => checkPath ((a.value? o.name).getD "")
  | .integer => (readInteger ((a.value? o.name).getD "")).map fun _ => ()

/-- Checks the arguments beside the options. -/
def checkRest (arity : Arity) (rest : List String) : Except Refusal Unit :=
  match arity, rest with
  | .none, [] => .ok ()
  | .none, arg :: _ => .error (.usage (.unexpectedArgument arg))
  | .integer, [] => .error (.usage .missingArgument)
  | .integer, [arg] => (readInteger arg).map fun _ => ()
  | .integer, arg :: extra :: _ => do
    let _ ← readInteger arg
    .error (.usage (.unexpectedArgument extra))
  | .paths, rest => rest.forM checkPath

/-- The arguments of a command, sorted and checked: the options in the order of
their first use, then the rest. -/
def arguments (form : Form) (args : List String) : Except Refusal Arguments :=
  match Arguments.sort form.options true args with
  | .error e => .error (.usage e)
  | .ok a =>
    if a.has "help" then .error .help
    -- Of two faults the one whose option was used first is reported.
    else do
      (Arguments.distinctOptions [] a.options).forM (checkValue a)
      checkRest form.arity a.rest
      .ok a

/-- The integer among the arguments of a command that takes one. -/
def index (a : Arguments) : Int :=
  (a.rest.head?.map integerOf).getD 0

/-- The workspace that is named. -/
def workspace (a : Arguments) : Option String := a.value? "workspace"

/-! ## Commands -/

/-- Reads a command on stored findings. -/
def readFindings (name : String) (args : List String) : Except Refusal Command := do
  match name with
  | "list" =>
    let a ← arguments .list args
    .ok (.list (workspace a) (a.has "all"))
  | "show" =>
    let a ← arguments .show_ args
    .ok (.show (index a) (workspace a))
  | "validate" =>
    let a ← arguments .validate args
    .ok (.validate (workspace a) (a.value? "file"))
  | "goto" =>
    let a ← arguments .goto args
    let element := ((a.value? "element").map integerOf).getD 0
    .ok (.goto (index a) element (workspace a))
  | "diagnostics" =>
    let a ← arguments .plain args
    .ok (.diagnostics (workspace a))
  | "clear" =>
    let a ← arguments .plain args
    .ok (.clear (workspace a))
  | _ => .error (.usage (.unknownCommand name))

/-- Whether arguments ask for something else than a command. -/
def asksForHelp (a : Arguments) : Bool :=
  Form.informative.any a.has

/-- What a command line of a group comes to if it goes on with the name of no command.
Behind two dashes that name may look like an option; it is then read as one after
all, if only to see whether help is asked for. -/
def refuseName (specs : List OptionSpec) (name : String) (args : List String) : Refusal :=
  match Arguments.sort specs false (name :: args) with
  | .error e => .usage e
  | .ok a => if asksForHelp a then .help else .usage (.unknownCommand name)

/-- Reads the command line of a group whose options are `specs` and whose commands are
`names`: the options, the name of a command, and what follows it. -/
def readGroup (specs : List OptionSpec) (names : List String) (args : List String) :
    Except Refusal (Arguments × String × List String) :=
  match Arguments.sort specs false args with
  | .error e => .error (.usage e)
  | .ok a =>
    if asksForHelp a then .error .help
    else do
      (Arguments.distinctOptions [] a.options).forM (checkValue a)
      match a.rest with
      | [] => .error (.usage .missingCommand)
      | name :: args =>
        if names.contains name then .ok (a, name, args) else .error (refuseName specs name args)

/-- The commands on stored findings. -/
def findingsNames : List String := ["list", "show", "validate", "goto", "diagnostics", "clear"]

/-- Reads what follows the name of a command. -/
def readCommand (name : String) (args : List String) : Except Refusal Command := do
  match name with
  | "analyze" =>
    let a ← arguments .analyze args
    .ok (.analyze a.rest (a.has "quiet"))
  | "detectors" =>
    let a ← arguments .detectors args
    .ok (.detectors (a.value? "impact"))
  | "findings" =>
    let (_, name, args) ← readGroup [Form.help] findingsNames args
    readFindings name args
  | _ => .error (.usage (.unknownCommand name))

/-- The commands of the program. -/
def names : List String := ["analyze", "detectors", "findings"]

/-- The program's own options, and the command line that is left. The command's
name is known to be one when this is answered. -/
def readProgram (args : List String) : Except Refusal (Arguments × String × List String) :=
  readGroup Form.program names args

end Command
end SourceDrift.Cli
