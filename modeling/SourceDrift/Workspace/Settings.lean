/-
The settings of a workspace on disk.

A workspace without a settings file has the default settings, and so has one whose
file is no JSON document, does not fit the model or cannot be opened. Bytes that
are no text are a failure, and so is a document that is nested too deep or has a
number with too many digits, which cannot be stored either.
-/
import SourceDrift.Config
import SourceDrift.Host.Basic

set_option autoImplicit false

namespace SourceDrift.Settings

/-- The settings that a text spells; the default ones if it spells none. -/
def ofText (room : Nat) (text : String) : Except Failure Config :=
  match Json.read room text with
  | .error e => if e.problem.isSyntactic then .ok Config.default else .error (.unreadable e)
  | .ok v =>
    match Config.ofJson v with
    | .error _ => .ok Config.default
    | .ok config => .ok config

/-- **Loads the settings of a workspace.** -/
def load (root : Path) : Action Config := do
  if ← Host.exists? (Storage.config root) then
    match ← Action.catching Failure.isSystem (Host.readText (Storage.config root)) with
    | .ok text => do
      let h ← get
      Action.ofExcept (ofText h.room text)
    | .error _ => pure Config.default
  else pure Config.default

/-- The text that stores settings. -/
def text (config : Config) : String :=
  config.document.render .indented

/-- The text that stores settings up to the number of seconds, which is their last value. -/
def textBeforeSeconds (config : Config) : String :=
  -- Behind a single digit there are only a line end and the closing brace.
  let brief := text ⟨config.solcPath, config.hidden, config.collapse, 0⟩
  String.ofList (brief.toList.take (brief.length - 3))

/-- **Stores the settings of a workspace**, and answers the path. A number with too many digits to
be shown is met when the text before it has been written. -/
def save (root : Path) (config : Config) : Action Path := do
  Host.makeDirectories (Storage.config root).parent
  if config.document.isWritable then
    Host.writeText (Storage.config root) (text config)
    pure (Storage.config root)
  else
    Host.writeText (Storage.config root) (textBeforeSeconds config)
    throw .unshowable

end SourceDrift.Settings
