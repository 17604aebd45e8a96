/-
Templates: text with fields in braces.

A field has a name, and behind it an optional mark and an optional layout, which
may hold fields of its own. A brace that is written twice stands for itself. The
reader takes a template apart piece by piece, so that whoever fills it in can stop
at the first piece that cannot be filled.
-/

set_option autoImplicit false

namespace SourceDrift.Template

/-- What is wrong with a template. -/
inductive Fault where
  | loneOpening
  | loneClosing
  | openField
  | openingInName
  | missingMark
  | missingColon
  | openLayout
  deriving DecidableEq

/-- The words for a fault. -/
def Fault.message : Fault → String
  | loneOpening => "Single '\x7b' encountered in format string"
  | loneClosing => "Single '\x7d' encountered in format string"
  | openField => "expected '\x7d' before end of string"
  | openingInName => "unexpected '\x7b' in field name"
  | missingMark => "end of string while looking for conversion specifier"
  | missingColon => "expected ':' after conversion specifier"
  | openLayout => "unmatched '\x7b' in format spec"

/-- A field of a template. -/
structure Field where
  name : List Char
  mark : Option Char
  layout : List Char
  deriving DecidableEq

/-- Text, a field behind it if there is one, and what is left of the template. -/
structure Piece where
  text : List Char
  field : Option Field
  rest : List Char
  deriving DecidableEq

/-- Whether a character is a brace. -/
def isBrace (c : Char) : Bool :=
  c == '\x7b' || c == '\x7d'

/-- Reads the name of a field and the character that ends it. Between brackets every
character belongs to the name. -/
def readName (inBrackets : Bool) : List Char → Except Fault (List Char × Char × List Char)
  | [] => .error .openField
  | c :: rest =>
    if !inBrackets && (c == '\x7d' || c == ':' || c == '!') then .ok ([], c, rest)
    else if !inBrackets && c == '\x7b' then .error .openingInName
    else
      (readName (if inBrackets then c != ']' else c == '[') rest).map fun (name, last, rest) =>
        (c :: name, last, rest)

/-- Reads the layout of a field up to the brace that closes it; `depth` counts the
braces that are open inside the layout. -/
def readLayout (depth : Nat) : List Char → Except Fault (List Char × List Char)
  | [] => .error .openLayout
  | c :: rest =>
    if c = '\x7d' ∧ depth = 0 then .ok ([], rest)
    else
      (readLayout (if c = '\x7b' then depth + 1 else if c = '\x7d' then depth - 1 else depth)
        rest).map fun (layout, rest) => (c :: layout, rest)

/-- Reads the mark of a field and what comes behind it. -/
def readMarked (name : List Char) : List Char → Except Fault (Field × List Char)
  | [] => .error .missingMark
  | mark :: rest =>
    let withLayout (rest : List Char) : Except Fault (Field × List Char) :=
      (readLayout 0 rest).map fun (layout, rest) => (⟨name, some mark, layout⟩, rest)
    match rest with
    | [] => withLayout []
    | c :: more =>
      if c = '\x7d' then .ok (⟨name, some mark, []⟩, more)
      else if c = ':' then withLayout more
      else .error .missingColon

/-- Reads a field whose opening brace has been read. -/
def readField (cs : List Char) : Except Fault (Field × List Char) :=
  match readName false cs with
  | .error e => .error e
  | .ok (name, last, rest) =>
    if last = '!' then readMarked name rest
    else if last = ':' then
      (readLayout 0 rest).map fun (layout, rest) => (⟨name, none, layout⟩, rest)
    else .ok (⟨name, none, []⟩, rest)

/-- **Reads the first piece of a template.** -/
def readPiece (cs : List Char) : Except Fault Piece :=
  let text := cs.takeWhile (!isBrace ·)
  match cs.dropWhile (!isBrace ·) with
  | [] => .ok ⟨text, none, []⟩
  | [brace] => .error (if brace = '\x7d' then .loneClosing else .loneOpening)
  | brace :: c :: rest =>
    if c = brace then .ok ⟨text ++ [brace], none, rest⟩
    else if brace = '\x7d' then .error .loneClosing
    else
      (readField (c :: rest)).map fun (field, rest) => ⟨text, some field, rest⟩

/-- Checks that a template can be taken apart. A piece takes at least one character,
so `fuel` need be no more than the length. -/
def check : Nat → List Char → Except Fault Unit
  | 0, _ => .ok ()
  | fuel + 1, cs =>
    if cs.isEmpty then .ok ()
    else
      match readPiece cs with
      | .error e => .error e
      | .ok piece => check fuel piece.rest

end SourceDrift.Template
