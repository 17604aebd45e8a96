/-
The stored findings of a workspace: one document, a list of findings with an
item a line, so that changes to it are easy to compare.

Reading and writing go through a lock. Whatever is wrong with the stored text,
from bytes that are no text to a single finding that does not fit the model,
makes the whole document unusable, and the failure says so. A text that is nested
too deep to be read is a failure of the program and is passed on as it is.
-/
import SourceDrift.Finding.Document
import SourceDrift.Host.Basic

set_option autoImplicit false

namespace SourceDrift.Repository

/-- Reads findings one by one; the first that does not fit the model ends it. -/
def readFindings : List Json → Except Failure (List Finding)
  | [] => .ok []
  | v :: rest =>
    match Finding.ofJson v with
    | .error issues => .error (.invalid issues)
    | .ok f =>
      match readFindings rest with
      | .error e => .error e
      | .ok fs => .ok (f :: fs)

/-- The document that a text spells, if there is room for it. -/
def readDocument (room : Nat) (text : String) : Except Failure Json :=
  match Json.read room text with
  | .ok v => .ok v
  | .error e => .error (.unreadable e)

/-- The findings that a document lists. -/
def itemsOf (document : Json) : Except Failure (List Json) :=
  match Analyzer.findingItems document with
  | .ok items => .ok items
  | .error e => .error (.misshapen e)

/-- **The findings that a text stores.** -/
def decode (room : Nat) (text : String) : Except Failure (List Finding) := do
  readFindings (← itemsOf (← readDocument room text))

/-- Puts findings down one by one; the first that goes too deep ends it. -/
def dumpAll : List Finding → Except Failure (List Json)
  | [] => .ok []
  | f :: rest =>
    match f.dump with
    | .error e => .error e
    | .ok document =>
      match dumpAll rest with
      | .error e => .error e
      | .ok documents => .ok (document :: documents)

/-- **The text that stores findings.** A value that goes too deep cannot be stored, nor
can an integer with too many digits to be shown. -/
def encode (fs : List Finding) : Except Failure String :=
  match dumpAll fs with
  | .error e => .error e
  | .ok documents =>
    if (Json.arr documents).isWritable then .ok ((Json.arr documents).render .indented)
    else .error .unshowable

/-- Loads the stored findings; none if nothing is stored. A document with more levels
than there is room for is not among the things that make it unusable. -/
def load (root : Path) : Action (Option (List Finding)) := do
  if ← Host.exists? (Storage.results root) then
    let h ← get
    let outcome ← Action.catching Failure.isOfInput do
      Host.lock (Storage.lock root)
      let text ← Host.readText (Storage.results root)
      Action.ofExcept (decode h.room text)
    match outcome with
    | .ok fs => pure (some fs)
    | .error cause => throw (.corruptFindings cause)
  else pure none

/-- Stores findings in the place of those stored before. -/
def save (root : Path) (fs : List Finding) : Action Unit := do
  let text ← Action.ofExcept (encode fs)
  Host.lock (Storage.lock root)
  Host.replaceFile (Storage.results root) text

/-- Deletes the stored findings, if there are any. -/
def delete (root : Path) : Action Unit := do
  if ← Host.exists? (Storage.results root) then
    Host.lock (Storage.lock root)
    Host.unlinkIfPresent (Storage.results root)

end SourceDrift.Repository
