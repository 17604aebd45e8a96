/-
Parts and items of the values that the fields of a log's name can reach.

A part has a name, and an item a number or a name. Some parts say what a value is
made of, some are shared by all values of a kind, and the rest are actions, which
can be named and shown but not taken.
-/
import SourceDrift.LogName.Problem
import SourceDrift.LogName.Value

set_option autoImplicit false

namespace SourceDrift.LogName.Value

/-! ## Parts of one's own -/

/-- The parts that values of a kind share with the kind itself. -/
def boundOf? (k : Kind) (name : String) : Option Value :=
  if k = .now ∨ k = .moment then
    match name with
    | "min" => some firstMoment
    | "max" => some lastMoment
    | "resolution" => some leastSpan
    | _ => none
  else if k = .span then
    match name with
    | "min" => some firstSpan
    | "max" => some lastSpan
    | "resolution" => some leastSpan
    | _ => none
  else if k = .zone then
    match name with
    | "utc" => some universalZone
    | "min" => some firstZone
    | "max" => some lastZone
    | _ => none
  else none

/-- The numbers of a moment. -/
def momentPart? (m : Moment) (name : String) : Option Value :=
  match name with
  | "year" => some (.number m.year)
  | "month" => some (.number m.month)
  | "day" => some (.number m.day)
  | "hour" => some (.number m.hour)
  | "minute" => some (.number m.minute)
  | "second" => some (.number m.second)
  | "microsecond" => some (.number m.microsecond)
  | "fold" => some (.number 0)
  | _ => none

/-- The parts of a kind of its own. -/
def kindPart? (k : Kind) (name : String) : Option Value :=
  match name with
  | "__name__" => some (.text k.name)
  | "__qualname__" => some (.text k.name)
  | "__module__" => some (.text k.home)
  | "__base__" => some ((k.ancestors.head?.map .kind).getD .nothing)
  | "__bases__" => some (.kinds (k.ancestors.take 1))
  | "__mro__" => some (.kinds (k :: k.ancestors))
  | _ => boundOf? k name

/-- The home of the time or the moment by the name of its kind. -/
def homeOf (owner : String) : String :=
  if owner = Kind.stamp.name then Kind.stamp.home else Kind.now.home

/-- The parts of a value that are there for its sort alone. -/
def ownPart? (at_ : Moment) (v : Value) (name : String) : Option Value :=
  match v, name with
  | stamp, "datetime" => some .now
  | stamp, "__module__" => some (.text Kind.stamp.home)
  | stamp, "__dict__" => some (.kept ["datetime"])
  | stamp, "__weakref__" => some .nothing
  | now, "tzinfo" => some zoneOfNow
  | now, "__module__" => some (.text Kind.now.home)
  | now, "__dict__" => some (.kept [])
  | now, "__weakref__" => some .nothing
  | now, _ => momentPart? at_ name
  | moment _, "tzinfo" => some .nothing
  | moment m, _ => momentPart? m name
  | span microseconds, "days" => some (.number (spanParts microseconds).1)
  | span microseconds, "seconds" => some (.number (spanParts microseconds).2.1)
  | span microseconds, "microseconds" => some (.number (spanParts microseconds).2.2)
  | number n, "real" => some (.number n)
  | number n, "numerator" => some (.number n)
  | number _, "imag" => some (.number 0)
  | number _, "denominator" => some (.number 1)
  | kind k, _ => kindPart? k name
  | member _ _ own _, "__name__" => some (.text own)
  | member _ owner own _, "__qualname__" => some (.text (owner ++ "." ++ own))
  | member "builtin_function_or_method" _ _ _, "__module__" => some .nothing
  | member "method" owner _ _, "__module__" => some (.text (homeOf owner))
  | member "function" owner _ _, "__module__" => some (.text (homeOf owner))
  | _, _ => none

/-! ## Actions -/

/-- A member with its shown form between angle brackets. -/
def shownMember (sort owner name shown : String) : Option Value :=
  some (.member sort owner name ("<" ++ shown ++ ">"))

/-- An action that a kind has itself. -/
def ownAction? (k : Kind) (name : String) : Option Value :=
  if k.ownActions.contains name then
    shownMember "builtin_function_or_method" k.name name
      ("built-in method " ++ name ++ " of type object" ++ keptAt)
  else none

/-- The action of a value that has a name. -/
def action? (at_ : Moment) (v : Value) (name : String) : Option Value :=
  let k := v.kindOf
  let ofOwner := k.tag ++ " object" ++ keptAt
  if k.newActions.contains name then
    shownMember "method" k.name name
      ("bound method " ++ k.name ++ "." ++ name ++ " of " ++ v.shown at_)
  else if Kind.fixedActions.contains name then
    shownMember "method-wrapper" (k.fixedOwner name).name name
      ("method-wrapper '" ++ name ++ "' of " ++ ofOwner)
  else if Kind.sharedActions.contains name ∨ (k.actions.owner? name).isSome then
    shownMember "builtin_function_or_method" k.name name
      ("built-in method " ++ name ++ " of " ++ ofOwner)
  else ownAction? k name

/-- What a kind has for the parts and the actions of its values. -/
def memberOf? (k : Kind) (name : String) : Option Value :=
  let ofValues (sort word : String) (owner : Kind) : Option Value :=
    shownMember sort owner.name name (word ++ " '" ++ name ++ "' of '" ++ owner.tag ++ "' objects")
  if k.newActions.contains name then
    shownMember "function" k.name name ("function " ++ k.name ++ "." ++ name ++ keptAt)
  else if Kind.fixedActions.contains name then
    ofValues "wrapper_descriptor" "slot wrapper" (k.fixedOwner name)
  else if Kind.sharedActions.contains name then
    ofValues "method_descriptor" "method" .anything
  else
    match k.parts.owner? name, k.actions.owner? name with
    | some owner, _ =>
      if k = .span then ofValues "member_descriptor" "member" owner
      else ofValues "getset_descriptor" "attribute" owner
    | none, some owner => ofValues "method_descriptor" "method" owner
    | none, none =>
      if name = "__weakref__" ∧ (k = .stamp ∨ k = .now) then
        ofValues "getset_descriptor" "attribute" k
      else ownAction? k name

/-! ## Parts and items -/

/-- The description of a value, which is that of its kind. -/
def description : Value → Value
  | kind k => (k.description?.map .text).getD .nothing
  | v => (v.kindOf.description?.map .text).getD .nothing

/-- **The part of a value** that has a name. -/
def part (at_ : Moment) (v : Value) (name : String) : Except Problem Value :=
  let common : Option Value :=
    match name with
    | "__class__" => some (.kind v.kindOf)
    | "__doc__" => some v.description
    | _ => none
  let brought : Option Value :=
    match v with
    | kind k => memberOf? k name
    | v => v.action? at_ name
  match common <|> v.ownPart? at_ name <|> boundOf? v.kindOf name <|> brought with
  | some part => .ok part
  | none => .error (.noPart v.partSubject name)

/-- **The item of a value** that has a name, which may be a number. -/
def item (v : Value) (name : String) (number? : Option Nat) : Except Problem Value :=
  match v, number? with
  | text s, some i =>
    match s.toList[i]? with
    | some c => .ok (.text (String.ofList [c]))
    | none => .error (.pastItems "string")
  | text _, none => .error (.namedItem "string indices must be integers, not 'str'")
  | kinds ks, some i =>
    match ks[i]? with
    | some k => .ok (.kind k)
    | none => .error (.pastItems "tuple")
  | kinds _, none => .error (.namedItem "tuple indices must be integers or slices, not str")
  | kept _, some i => .error (.noItem (String.ofList (Numeral.digits i)))
  | kept names, none =>
    if names.contains name then .ok .now else .error (.noItem (String.ofList (Text.shown name)))
  | kind k, _ => .error (.noItems ("type '" ++ k.tag ++ "'"))
  | v, _ => .error (.noItems v.subject)

end SourceDrift.LogName.Value
