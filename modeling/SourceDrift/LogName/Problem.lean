/-
What can be wrong with the name of a log.
-/
import SourceDrift.Text.Layout.Basic
import SourceDrift.Text.Shown
import SourceDrift.Text.Template

set_option autoImplicit false

namespace SourceDrift.LogName

/-- Why a log cannot be named. A subject is a value or a kind of values, as messages name
it; `kind` is the name of the kind of a value. -/
inductive Problem where
  /-- The template cannot be taken apart. -/
  | malformed (fault : Template.Fault)
  /-- A field is numbered or has no name. -/
  | numberedField
  /-- A field or an item has too great a number. -/
  | hugeNumber
  /-- A field has a name that stands for nothing. -/
  | unknownField (name : String)
  /-- A part or an item has no name. -/
  | unnamedPart
  /-- Something that is neither a part nor an item is asked for behind an item. -/
  | afterItem
  /-- A value has no such part. -/
  | noPart (subject name : String)
  /-- A value has no items. -/
  | noItems (subject : String)
  /-- Items have numbers, not names. -/
  | namedItem (rule : String)
  /-- There is no item of a name. -/
  | noItem (shown : String)
  /-- There are not so many items. -/
  | pastItems (subject : String)
  /-- A mark stands for nothing. -/
  | unknownMark (mark : Char)
  /-- Fields are nested too deep. -/
  | nestedTooDeep
  /-- A notation asks for parts of a second that are not kept. -/
  | tooFine
  /-- A layout does not fit a text or a number. -/
  | misfit (fault : Layout.Fault)
  /-- Values of a kind have no layout. -/
  | noLayout (kind : String)
  deriving DecidableEq

/-- The kind of a problem. -/
def Problem.kind : Problem → String
  | unknownField _ => "KeyError"
  | noPart _ _ => "AttributeError"
  | noItems _ => "TypeError"
  | namedItem _ => "TypeError"
  | noLayout _ => "TypeError"
  | noItem _ => "KeyError"
  | pastItems _ => "IndexError"
  | misfit .noCharacter => "OverflowError"
  | misfit .noRoom => "MemoryError"
  | _ => "ValueError"

/-- The words for a problem. -/
def Problem.message : Problem → String
  | malformed fault => fault.message
  | numberedField => "Format string contains positional fields"
  | hugeNumber => Layout.Fault.hugeNumber.message
  | unknownField name => String.ofList (Text.shown name)
  | unnamedPart => "Empty attribute in format string"
  | afterItem => "Only '.' or '[' may follow ']' in format field specifier"
  | noPart subject name => subject ++ " has no attribute '" ++ name ++ "'"
  | noItems subject => subject ++ " is not subscriptable"
  | namedItem rule => rule
  | noItem shown => shown
  | pastItems subject => subject ++ " index out of range"
  | unknownMark mark =>
    "Unknown conversion specifier " ++
      if 32 < mark.toNat ∧ mark.toNat < 127 then String.ofList [mark]
      else "\\x" ++ String.ofList (Nat.toDigits 16 mark.toNat)
  | nestedTooDeep => "Max string recursion exceeded"
  | tooFine =>
    "Invalid time format: the provided format string contains more than six successive " ++
      "'S' characters. This may be due to an attempt to use nanosecond precision, which " ++
      "is not supported."
  | misfit fault => fault.message
  | noLayout kind => "unsupported format string passed to " ++ kind ++ ".__format__"

end SourceDrift.LogName
