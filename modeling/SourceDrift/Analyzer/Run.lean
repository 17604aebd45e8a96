/-
Running the analyser.

The analyser's exit code says nothing about a run, since it differs from zero
whenever something was found. A run is judged by the document it leaves: an old
document is removed first, and what is there afterwards has to be readable, has to
hold findings, and must not say itself that the analysis failed.
-/
import SourceDrift.Analyzer.Version
import SourceDrift.Detector
import SourceDrift.Host.Basic

set_option autoImplicit false

namespace SourceDrift.Analyzer

/-! ## Starting the program -/

/-- What a finished run answers. -/
structure Answer where
  exitCode : Int
  stdout : String
  stderr : String

/-- Whether a text can be passed to another program. -/
def isPassable (s : String) : Bool :=
  !s.toList.contains '\x00'

/-- The directory that a run works in: the one asked for, or that of the world. -/
def runDirectory (h : Host) : Option Path → Except Failure Place
  | none => .ok h.cwd
  | some p =>
    match h.files.locate h.cwd .target p with
    | .error e => .error e
    | .ok place =>
      match h.files.node? place with
      | none => .error (.system .notFound p.toString)
      | some .directory => .ok place
      | some _ => .error (.system .notADirectory p.toString)

/-- Why the analyser cannot be started, if it cannot. -/
def startFailure (tool : Tool) : Option Failure :=
  match tool.presence with
  | .absent => some (.system .notFound tool.command)
  | .notExecutable => some (.system .notPermitted tool.command)
  | .executable => none

/-- Puts down what a run leaves, from the directory that it works in. A path that cannot
be written is left as it is, and the run learns why. -/
def putDown (t : FileTree) (directory : Place) (p : Path) : Leaving → FileTree × Option Failure
  | .nothing => (t, none)
  | .file bytes =>
    match t.writeFile directory p bytes with
    | .ok t => (t, none)
    | .error e => (t, some e)
  | .directory =>
    match t.makeDirectory directory p with
    | .ok t => (t, none)
    | .error e => (t, some e)

/-- What a run puts at the path it is told, if it is told one. -/
def leave (t : FileTree) (directory : Place) (output : Option Path) (leaving : Leaving) :
    FileTree × Option Failure :=
  match output with
  | none => (t, none)
  | some p => putDown t directory p leaving

/-- What a run answers that has come to its end, knowing why it could not write, if so. -/
def Behaviour.answer (behaviour : Behaviour) (refusal : Option Failure) : Answer :=
  let (exitCode, stderr) :=
    (refusal.map behaviour.refused).getD (behaviour.exitCode, behaviour.stderr)
  ⟨exitCode, String.ofList (Utf8.decodeLossy behaviour.stdout),
    String.ofList (Utf8.decodeLossy stderr)⟩

/-- Whether a number of seconds can be measured: time is measured by a double. -/
def isMeasurable (seconds : Int) : Bool :=
  (Binary64.ofDecimal false ⟨seconds.toNat, 0⟩).isFinite

/-- Runs the analyser with arguments: `behaviour` is what it does on them, and
`output` the path that it is told to write to. -/
def start (args : List String) (directory output : Option Path) (behaviour : Behaviour)
    (timeout : Int) : Action Answer := fun h =>
  if !(h.tool.command :: args).all isPassable then .error .embeddedNul h
  else
    -- The directory is entered before the program is looked for.
    match runDirectory h directory with
    | .error e => .error e h
    | .ok place =>
      match startFailure h.tool with
      | some e => .error e h
      | none =>
        -- A run that is not waited for has been started nonetheless.
        let stopped := { h with files := (leave h.files place output behaviour.stopped).1 }
        if timeout ≤ 0 then .error .timedOut stopped
        else if !isMeasurable timeout then .error .endlessTimeout stopped
        else if behaviour.hangs then .error .timedOut stopped
        else
          let (files, refusal) := leave h.files place output behaviour.leaving
          .ok (behaviour.answer refusal) { h with files := files, calls := h.calls ++ [args] }

/-- Seconds that a question about the analyser itself may take. -/
def queryTimeout : Int := 60

/-! ## Its version -/

/-- The version that the analyser reports; none if it cannot be asked. -/
def version : Action (Option String) := do
  let h ← get
  -- Running out of time counts as a failure of the system here.
  match ← Action.catching Failure.isSystem
      (start ["--version"] none none h.tool.version queryTimeout) with
  | .ok answer => pure (if answer.exitCode = 0 then some (Text.strip answer.stdout) else none)
  | .error _ => pure none

/-- The oldest version that will do. -/
def minimumVersion : String := "0.4.0"

/-- Whether the analyser is there and recent enough. -/
def checkVersion (minimum : String) : Action Bool := do
  match ← version with
  | none => pure false
  | some installed =>
    Action.ofExcept ((Version.isSupported installed minimum).mapError .tooLong)

/-! ## Its rules -/

/-- The items that a catalogue is gone through by: those of a list, the keys of an
object, the characters of a text. -/
def catalogueItems : Json → Except Failure (List Json)
  | .arr items => .ok items
  | .obj members => .ok (members.map fun m => .str m.1)
  | .str s => .ok (s.toList.map fun c => .str (String.ofList [c]))
  | v => .error (.notIterable (kindName v))

/-- Reads rules one by one; the first that does not fit the model ends it. -/
def readDetectors : List Json → Except Failure (List Detector)
  | [] => .ok []
  | v :: rest =>
    match Detector.ofJson v with
    | .error issues => .error (.invalid issues)
    | .ok d =>
      match readDetectors rest with
      | .error e => .error e
      | .ok ds => .ok (d :: ds)

/-- The rules that a catalogue's text lists, in the order of their names. -/
def readCatalogue (room : Nat) (text : String) : Except Failure (List Detector) :=
  match Json.read room text with
  | .error e => .error (.unreadable e)
  | .ok v =>
    match catalogueItems v with
    | .error e => .error e
    | .ok items =>
      match readDetectors items with
      | .error e => .error e
      | .ok ds => .ok (ds.mergeSort fun a b => decide (a.check ≤ b.check))

/-- **The rules of the analyser.** -/
def detectors : Action (List Detector) := do
  let h ← get
  let answer ← start ["--list-detectors-json"] none none h.tool.detectors queryTimeout
  if answer.exitCode ≠ 0 ∧ Text.strip answer.stdout = "" then
    throw (.noCatalogue (Text.strip answer.stderr))
  Action.ofExcept (readCatalogue h.room answer.stdout)

/-! ## Analysing a workspace -/

/-- How an analysis ended. -/
inductive RunResult where
  | found (exitCode : Int) (items : List Json)
  | failed (exitCode : Option Int) (reason : String)

/-- The arguments of an analysis. -/
def arguments (root output : Path) (solc : String) : List String :=
  [root.toString, "--disable-solc-warnings", "--json", output.toString] ++
    if solc = "" then [] else ["--solc", solc]

/-- The findings of a document and the failure that it declares; a document whose
shape is wrong has neither. -/
def judge (document : Json) : Except Failure (Option String × List Json) :=
  match findingItems document with
  | .error e => .error (.misshapen e)
  | .ok items => .ok (declaredFailure document, items)

/-- What the text of a document says about the run. -/
def readOutput (room : Nat) (exitCode : Int) (text : String) : Except Failure RunResult :=
  match Json.read room text with
  | .error e => .error (.unreadable e)
  | .ok document =>
    match judge document with
    | .error e => .error e
    | .ok (some reason, _) => .ok (.failed (some exitCode) reason)
    | .ok (none, items) => .ok (.found exitCode items)

/-- What a finished run has found. -/
def collect (output : Path) (answer : Answer) : Action RunResult := do
  if ← Host.exists? output then
    let h ← get
    let outcome ← Action.catching Failure.isOfInput do
      let text ← Host.readText output
      Action.ofExcept (readOutput h.room answer.exitCode text)
    match outcome with
    | .ok result => pure result
    | .error e => pure (.failed (some answer.exitCode) ("unreadable output: " ++ e.message))
  else
    let reason := Text.strip answer.stderr
    pure (.failed (some answer.exitCode)
      (if reason = "" then s!"exit code {answer.exitCode}" else reason))

/-- **Analyses a workspace**: removes the old document, runs the analyser, and
judges the document it leaves. -/
def analyze (root output : Path) (solc : String) (timeout : Int) : Action RunResult := do
  Host.makeDirectories output.parent
  -- Whatever is there after the run has been left by the run.
  Host.unlinkIfPresent output
  let h ← get
  let outcome ← Action.catching Failure.isSystem
    (start (arguments root output solc) (some root) (some output) (h.tool.analyze (h.key root))
      timeout)
  match outcome with
  | .ok answer => collect output answer
  | .error .timedOut => pure (.failed none s!"Timeout after {timeout}s")
  | .error e => pure (.failed none e.message)

end SourceDrift.Analyzer
