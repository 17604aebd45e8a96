/-
Arguments of a command line, sorted into options and the rest.

An option has a long name and may have a letter. Options that take a value find it
behind an equals sign or the letter, or in the next argument, whatever that looks
like. Letters of options without a value may be written together. Two dashes end
the options.
-/

set_option autoImplicit false

namespace SourceDrift.Cli

/-- What a value has to be. -/
inductive ValueKind where
  | flag
  | text
  | path
  | integer
  deriving DecidableEq

/-- An option of a command. -/
structure OptionSpec where
  name : String
  letter : Option Char
  kind : ValueKind
  deriving DecidableEq

namespace OptionSpec

/-- Whether an option is followed by a value. -/
def takesValue (o : OptionSpec) : Bool := o.kind != .flag

end OptionSpec

/-- Why a command line is refused. -/
inductive UsageError where
  | unknownOption (name : String)
  | missingValue (name : String)
  | unexpectedValue (name : String)
  | invalidInteger (text : String)
  | invalidPath (text : String)
  | missingArgument
  | unexpectedArgument (text : String)
  | unknownCommand (name : String)
  | missingCommand
  deriving DecidableEq

/-- An option that was given, with its value if it takes one. -/
structure Given where
  option : OptionSpec
  value : String

/-- Arguments sorted: the options in the order in which they were given, and the
rest. -/
structure Arguments where
  options : List Given
  rest : List String

namespace Arguments

/-- What an argument that starts with a dash says: options, the last of which may
still want a value. -/
structure Reading where
  options : List Given
  wanting : Option OptionSpec

/-- The option of a letter. -/
def byLetter? (specs : List OptionSpec) (c : Char) : Option OptionSpec :=
  specs.find? fun o => o.letter == some c

/-- Reads the letters of an argument. What follows the letter of an option with a
value is that value. -/
def readLetters (specs : List OptionSpec) : List Char → Except UsageError Reading
  | [] => .ok ⟨[], none⟩
  | c :: rest =>
    match byLetter? specs c with
    | none => .error (.unknownOption (String.ofList ['-', c]))
    | some o =>
      if o.takesValue then
        if rest.isEmpty then .ok ⟨[], some o⟩ else .ok ⟨[⟨o, String.ofList rest⟩], none⟩
      else
        match readLetters specs rest with
        | .error e => .error e
        | .ok r => .ok ⟨⟨o, ""⟩ :: r.options, r.wanting⟩

/-- Reads the long name of an argument, with the value behind its equals sign. -/
def readLong (specs : List OptionSpec) (cs : List Char) : Except UsageError Reading :=
  let name := String.ofList (cs.takeWhile (· != '='))
  match specs.find? fun o => o.name == name, cs.dropWhile (· != '=') with
  | none, _ => .error (.unknownOption name)
  | some o, [] => if o.takesValue then .ok ⟨[], some o⟩ else .ok ⟨[⟨o, ""⟩], none⟩
  | some o, _ :: value =>
    if o.takesValue then .ok ⟨[⟨o, String.ofList value⟩], none⟩
    else .error (.unexpectedValue name)

/-- Whether an argument is read as options: it starts with a dash and does not end
there. -/
def isOption (arg : String) : Bool :=
  match arg.toList with
  | '-' :: _ :: _ => true
  | _ => false

/-- Reads an argument that starts with a dash. -/
def readOption (specs : List OptionSpec) (arg : String) : Except UsageError Reading :=
  match arg.toList with
  | '-' :: '-' :: name => readLong specs name
  | '-' :: letters => readLetters specs letters
  | _ => .error (.unknownOption arg)

/-- The arguments with more options before them. -/
def addOptions (options : List Given) (a : Arguments) : Arguments :=
  { a with options := options ++ a.options }

/-- The arguments with one more of the rest before them. -/
def addRest (arg : String) (a : Arguments) : Arguments :=
  { a with rest := arg :: a.rest }

/-- **Sorts arguments.** With `mixed` options are looked for among the other
arguments as well; without it the first other argument ends them. -/
def sort (specs : List OptionSpec) (mixed : Bool) : List String → Except UsageError Arguments
  | [] => .ok ⟨[], []⟩
  | arg :: rest =>
    if arg = "--" then .ok ⟨[], rest⟩
    else if isOption arg then
      match readOption specs arg with
      | .error e => .error e
      | .ok ⟨options, none⟩ => (sort specs mixed rest).map (addOptions options)
      | .ok ⟨options, some o⟩ =>
        match rest with
        | [] => .error (.missingValue o.name)
        | value :: rest => (sort specs mixed rest).map (addOptions (options ++ [⟨o, value⟩]))
    else if mixed then (sort specs mixed rest).map (addRest arg)
    else .ok ⟨[], arg :: rest⟩

/-- Whether an option was given. -/
def has (a : Arguments) (name : String) : Bool :=
  a.options.any fun g => g.option.name == name

/-- The value of an option; the last one counts. -/
def value? (a : Arguments) (name : String) : Option String :=
  (a.options.reverse.find? fun g => g.option.name == name).map (·.value)

/-- The options that were given, each once, in the order of their first use. -/
def distinctOptions (seen : List String) : List Given → List OptionSpec
  | [] => []
  | g :: rest =>
    if seen.contains g.option.name then distinctOptions seen rest
    else g.option :: distinctOptions (g.option.name :: seen) rest

end Arguments
end SourceDrift.Cli
