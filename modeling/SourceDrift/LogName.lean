/-
Names of log files.

The name of a log is a template whose only field is the time. From the time the name
of a field may go on to parts and items of it. What it reaches is written in the
layout of the field, which may be put together from fields itself: the time and the
moments in notations of theirs, texts and numbers like all texts and numbers, and
everything else only without a layout.
-/
import SourceDrift.LogName.Part
import SourceDrift.Moment.Directives
import SourceDrift.Moment.Signs
import SourceDrift.Text.Layout.Number

set_option autoImplicit false

namespace SourceDrift.LogName

/-! ## Names of fields -/

/-- The number that a name is, if it is one. Too great a number is refused as soon as it
is read, whatever comes behind it. -/
def numberOf (name : List Char) : Except Problem (Option Nat) :=
  let digits := name.takeWhile Text.isDecimalDigit
  if Layout.greatestNumber < Text.decimalValue digits then .error .hugeNumber
  else
    .ok (if digits.isEmpty || digits.length != name.length then none
      else some (Text.decimalValue digits))

/-- Whether a character goes on with the name of a field or a part. -/
def isInside (c : Char) : Bool :=
  c != '.' && c != '['

/-- What is reached from a value by the rest of a name: the parts and items that it
asks for, one after the other. `fuel` bounds their number. -/
def follow (now : Moment) : Nat → Value → List Char → Except Problem Value
  | _, value, [] => .ok value
  | 0, value, _ => .ok value
  | fuel + 1, value, '[' :: rest => do
    let item := rest.takeWhile (· != ']')
    let number? ← numberOf item
    if item.isEmpty then .error .unnamedPart
    follow now fuel (← value.item (String.ofList item) number?) (rest.drop (item.length + 1))
  | fuel + 1, value, '.' :: rest => do
    let part := rest.takeWhile isInside
    if part.isEmpty then .error .unnamedPart
    follow now fuel (← value.part now (String.ofList part)) (rest.drop part.length)
  | _ + 1, _, _ => .error .afterItem

/-- What a field stands for. -/
def valueOf (now : Moment) (name : List Char) : Except Problem Value := do
  let field := name.takeWhile isInside
  if field.isEmpty || (← numberOf field).isSome then .error .numberedField
  else if field != "time".toList then .error (.unknownField (String.ofList field))
  else follow now name.length .stamp (name.drop field.length)

/-! ## Writing values -/

/-- The notation of the time where none is given. -/
def stampNotation : List Char := "%Y-%m-%d_%H-%M-%S_%f".toList

/-- The notation of a moment with a zone where none is given. -/
def momentNotation : List Char := "%Y-%m-%dT%H:%M:%S.%f%z".toList

/-- The moment at which a log is named in a notation of either sort. A mark at its end
that asks for universal time changes nothing. -/
def writeNow (at_ : Moment) (layout : List Char) : Except Problem (List Char) :=
  let mark := "!UTC".toList
  let asked :=
    if mark.isSuffixOf layout then layout.take (layout.length - mark.length) else layout
  let cs := if asked.isEmpty then momentNotation else asked
  if cs.contains '%' then .ok (at_.writePercents true cs)
  else if Moment.isTooFine cs then .error .tooFine
  else .ok (at_.writeSigns cs)

/-- **The text of a value in a layout.** -/
def Value.write (at_ : Moment) (v : Value) (layout : List Char) : Except Problem (List Char) :=
  match v with
  | .stamp => writeNow at_ (if layout.isEmpty then stampNotation else layout)
  | .now => writeNow at_ layout
  | .moment m => .ok (if layout.isEmpty then m.standard ' ' else m.writePercents false layout)
  | .number n => (Layout.ofNumber layout n).mapError .misfit
  | .text s => (Layout.ofText layout s.toList).mapError .misfit
  | v =>
    if layout.isEmpty then .ok (v.asText at_).toList else .error (.noLayout v.kindOf.tag)

/-- The text that a mark turns a value into, if it stands for anything. -/
def Value.marked (at_ : Moment) (v : Value) (mark : Char) : Except Problem Value :=
  match mark with
  | 's' => .ok (.text (v.asText at_))
  | 'r' => .ok (.text (v.shown at_))
  | 'a' => .ok (.text (v.shown at_))
  | mark => .error (.unknownMark mark)

/-! ## Filling in -/

/-- Fills in a template piece by piece. `fillLayout` does the same for a layout that
has fields, and `fuel` bounds the number of pieces. -/
def fillWith (fillLayout : List Char → Except Problem (List Char)) (now : Moment) :
    Nat → List Char → Except Problem (List Char)
  | 0, _ => .ok []
  | fuel + 1, cs =>
    if cs.isEmpty then .ok []
    else do
      let piece ← (Template.readPiece cs).mapError .malformed
      let text ← match piece.field with
        | none => .ok []
        | some field => do
          let found ← valueOf now field.name
          let value ← match field.mark with
            | none => .ok found
            | some mark => found.marked now mark
          let layout ←
            if field.layout.contains '\x7b' then fillLayout field.layout else .ok field.layout
          value.write now layout
      let rest ← fillWith fillLayout now fuel piece.rest
      .ok (piece.text ++ text ++ rest)

/-- Fills in a template whose layouts are nested at most `depth` deep. -/
def fill (now : Moment) : Nat → List Char → Except Problem (List Char)
  | 0, _ => .error .nestedTooDeep
  | depth + 1, cs => fillWith (fill now depth) now cs.length cs

/-- **The name of a log at a moment.** A template that cannot be taken apart is refused
before any field is looked at. -/
def ofTemplate (now : Moment) (template : String) : Except Problem String := do
  let cs := template.toList
  (Template.check cs.length cs).mapError .malformed
  String.ofList <$> fill now 2 cs

end SourceDrift.LogName
