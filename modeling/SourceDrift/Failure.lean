/-
The ways in which an action can fail.

A failure says what went wrong and where; the words for it are in one function.
What a command or a store does about a failure depends on its class only, and the
classes are told apart at the end.
Failures of the file system name the path as it was asked for, which is why a
place that has been found plays no part in them.
-/
import SourceDrift.Analyzer.Output
import SourceDrift.Json.Reader
import SourceDrift.Path
import SourceDrift.Text.Utf8
import SourceDrift.Validation

set_option autoImplicit false

namespace SourceDrift

/-- Why a file system refuses. -/
inductive SystemError where
  | notFound
  | notPermitted
  | alreadyExists
  | notADirectory
  | isADirectory
  | nameTooLong
  | tooManyLinks
  deriving DecidableEq

namespace SystemError

/-- The number of an error. -/
def number : SystemError → Nat
  | notFound => 2
  | notPermitted => 13
  | alreadyExists => 17
  | notADirectory => 20
  | isADirectory => 21
  | nameTooLong => 36
  | tooManyLinks => 40

/-- The words for an error. -/
def words : SystemError → String
  | notFound => "No such file or directory"
  | notPermitted => "Permission denied"
  | alreadyExists => "File exists"
  | notADirectory => "Not a directory"
  | isADirectory => "Is a directory"
  | nameTooLong => "File name too long"
  | tooManyLinks => "Too many levels of symbolic links"

/-- The error with its number. -/
def message (e : SystemError) : String :=
  s!"[Errno {e.number}] {e.words}"

/-- Whether the error only says that nothing is at a path. -/
def meansAbsent : SystemError → Bool
  | notFound => true
  | notADirectory => true
  | tooManyLinks => true
  | _ => false

end SystemError

/-- Why an action failed. -/
inductive Failure where
  /-- The file system refused an operation on a path. -/
  | system (cause : SystemError) (path : String)
  /-- The file system refused an operation on two paths. -/
  | systemPair (cause : SystemError) (first second : String)
  /-- A path or an argument holds a character that cannot be passed on. -/
  | embeddedNul
  /-- A chain of links has no end. -/
  | linkLoop (path : String)
  /-- A text file holds no text. -/
  | undecodable (fault : Utf8.Fault)
  /-- A text spells a number with too many digits. -/
  | tooLong (number : Numeral.TooLong)
  /-- A number has more digits than can be shown. -/
  | unshowable
  /-- A value that is kept without being looked into goes too deep to be put down. -/
  | tooDeep
  /-- A text is no JSON document. -/
  | unreadable (error : Json.ReadError)
  /-- A document holds no findings. -/
  | misshapen (error : Analyzer.ShapeError)
  /-- A document does not fit its model. -/
  | invalid (issues : List Issue)
  /-- The stored findings cannot be used. -/
  | corruptFindings (cause : Failure)
  /-- The analyser did not list its rules. -/
  | noCatalogue (reason : String)
  /-- The analyser's catalogue is a value that has no items. -/
  | notIterable (kind : String)
  /-- The analyser took too long. -/
  | timedOut
  /-- The analyser was given more time than can be measured. -/
  | endlessTimeout
  /-- The log that is asked for has no name: what kind of fault there is, and its words. -/
  | unnamedLog (kind message : String)
  /-- The console cannot make out the styles in a text. -/
  | markup (message : String)
  /-- Someone has put an end to it from outside. -/
  | interrupted

namespace Failure

/-- A path or a text in quotes. -/
def quoted (s : String) : String :=
  String.ofList (Text.shown s)

/-- **The words for a failure.** -/
def message : Failure → String
  | system cause path => cause.message ++ ": " ++ quoted path
  | systemPair cause first second =>
    cause.message ++ ": " ++ quoted first ++ " -> " ++ quoted second
  | embeddedNul => "embedded null byte"
  | linkLoop path => "Symlink loop from " ++ quoted path
  | undecodable fault => fault.message
  | tooLong number => number.message
  | unshowable =>
    s!"Exceeds the limit ({Numeral.maxDigits} digits) for integer string conversion; " ++
      "use sys.set_int_max_str_digits() to increase the limit"
  | tooDeep => "Circular reference detected (depth exceeded)"
  | unreadable error => error.message
  | misshapen error => error.message
  | invalid issues => s!"{issues.length} validation errors"
  | corruptFindings cause => cause.message
  | noCatalogue reason => "Failed to list detectors: " ++ reason
  | notIterable kind => quoted kind ++ " object is not iterable"
  | timedOut => ""
  | endlessTimeout => "int too large to convert to float"
  | unnamedLog _ message => message
  | markup message => message
  | interrupted => ""

/-- Whether the failure came from the file system. -/
def isSystem : Failure → Bool
  | system _ _ => true
  | systemPair _ _ _ => true
  | timedOut => true
  | _ => false

/-- Whether the failure is about a value that is not what it should be. A text with too
many levels is none of these: it has used up the room there is. -/
def isValue : Failure → Bool
  | embeddedNul => true
  | undecodable _ => true
  | tooLong _ => true
  | unshowable => true
  | tooDeep => true
  | unreadable error => !error.problem.isDepth
  | misshapen _ => true
  | invalid _ => true
  | _ => false

/-- Whether the failure came up while the program ran, by itself. -/
def isRuntime : Failure → Bool
  | linkLoop _ => true
  | noCatalogue _ => true
  | unreadable error => error.problem.isDepth
  | _ => false

/-- Whether the failure comes of what is outside: of the system, or of what it has given. -/
def isOfInput (e : Failure) : Bool :=
  e.isSystem || e.isValue

theorem isOfInput_unreadable (error : Json.ReadError) :
    (unreadable error).isOfInput = !error.problem.isDepth := rfl

/-- Whether the failure is the program's own, rather than the end that someone else
has put to it. -/
def isException : Failure → Bool
  | interrupted => false
  | _ => true

end Failure
end SourceDrift
