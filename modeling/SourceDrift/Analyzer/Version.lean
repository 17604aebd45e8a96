/-
Version numbers of the analyser.

A version is an epoch, a release of any number of parts, and optional marks for a
pre-release, a post-release, a development release and a local build. The text
may spell the marks in several ways and in any case. Versions are ordered by the
epoch, then by the release without the zeros at its end, then by the marks: a
development release comes before the pre-releases, those before the release
itself, and post-releases and local builds after it.
-/
import SourceDrift.Text.Blank
import SourceDrift.Text.Numeral

set_option autoImplicit false

namespace SourceDrift.Analyzer

/-- A part of a local build's name. -/
inductive LocalPart where
  | number (n : Nat)
  | word (s : String)
  deriving DecidableEq

/-- A version number. -/
structure Version where
  epoch : Nat
  release : List Nat
  pre : Option (String × Nat)
  post : Option (String × Nat)
  dev : Option Nat
  build : Option (List LocalPart)
  deriving DecidableEq

namespace Version

/-! ## Letters in any case -/

/-- Whether a character is a lower-case letter in either case. Letters outside ASCII
are no case of any. -/
def isCaseOf (letter c : Char) : Bool :=
  c.toLower == letter

/-- The characters in lower case. -/
def lower (cs : List Char) : String :=
  String.ofList (cs.map Char.toLower)

/-- Reads a word in any case: the characters read and what is left. -/
def readWord? : List Char → List Char → Option (List Char × List Char)
  | [], cs => some ([], cs)
  | _ :: _, [] => none
  | letter :: word, c :: rest =>
    if isCaseOf letter c then
      (readWord? word rest).map fun (read, rest) => (c :: read, rest)
    else none

/-- Reads the first of some words that stands there. -/
def readOneOf? (words : List String) (cs : List Char) : Option (List Char × List Char) :=
  words.findSome? fun word => readWord? word.toList cs

/-! ## Parts of the text -/

/-- A character that separates a mark from what is before or after it. -/
def isSeparator (c : Char) : Bool :=
  c == '-' || c == '_' || c == '.'

/-- The text without a separator at its start. -/
def skipSeparator : List Char → List Char
  | [] => []
  | c :: rest => if isSeparator c then rest else c :: rest

/-- Reads a run of digits. -/
def readNumber? (cs : List Char) : Option (Nat × List Char) :=
  match cs.takeWhile Numeral.isDigit with
  | [] => none
  | digits => some (Numeral.value digits, cs.dropWhile Numeral.isDigit)

/-- Reads the parts of a release after the first; `fuel` bounds their number. -/
def readReleaseParts : Nat → List Char → List Nat × List Char
  | fuel + 1, '.' :: rest =>
    match readNumber? rest with
    | some (n, more) =>
      let (parts, rest) := readReleaseParts fuel more
      (n :: parts, rest)
    | none => ([], '.' :: rest)
  | _, cs => ([], cs)

/-- Reads a release. -/
def readRelease? (cs : List Char) : Option (List Nat × List Char) :=
  match readNumber? cs with
  | none => none
  | some (n, rest) =>
    let (parts, rest) := readReleaseParts rest.length rest
    some (n :: parts, rest)

/-- Reads an epoch, which a following exclamation mark makes one. -/
def readEpoch (cs : List Char) : Nat × List Char :=
  match readNumber? cs with
  | some (n, '!' :: rest) => (n, rest)
  | _ => (0, cs)

/-- Reads a mark: one of some words, between optional separators, and an optional
number that counts as zero when it is absent. -/
def readMark? (words : List String) (cs : List Char) : Option ((List Char × Nat) × List Char) :=
  match readOneOf? words (skipSeparator cs) with
  | none => none
  | some (word, rest) =>
    match readNumber? (skipSeparator rest) with
    | some (n, rest) => some ((word, n), rest)
    | none => some ((word, 0), skipSeparator rest)

/-- The spelling that stands for all spellings of a mark. -/
def label (word : List Char) : String :=
  let s := lower word
  if s = "alpha" then "a"
  else if s = "beta" then "b"
  else if s = "c" ∨ s = "pre" ∨ s = "preview" then "rc"
  else if s = "rev" ∨ s = "r" then "post"
  else s

/-- Reads the mark of a pre-release. -/
def readPre (cs : List Char) : Option (String × Nat) × List Char :=
  match readMark? ["alpha", "a", "beta", "b", "preview", "pre", "c", "rc"] cs with
  | some ((word, n), rest) => (some (label word, n), rest)
  | none => (none, cs)

/-- Reads the mark of a post-release by its words. -/
def readPostWord (cs : List Char) : Option (String × Nat) × List Char :=
  match readMark? ["post", "rev", "r"] cs with
  | some ((word, n), rest) => (some (label word, n), rest)
  | none => (none, cs)

/-- Reads the mark of a post-release, which may be no more than a dash and a
number. -/
def readPost (cs : List Char) : Option (String × Nat) × List Char :=
  match cs with
  | '-' :: rest =>
    match readNumber? rest with
    | some (n, rest) => (some ("post", n), rest)
    | none => readPostWord cs
  | _ => readPostWord cs

/-- Reads the mark of a development release. -/
def readDev (cs : List Char) : Option Nat × List Char :=
  match readMark? ["dev"] cs with
  | some ((_, n), rest) => (some n, rest)
  | none => (none, cs)

/-- A part of a local build's name from its characters. -/
def localPart (cs : List Char) : LocalPart :=
  if cs.all Numeral.isDigit then .number (Numeral.value cs)
  else .word (lower cs)

/-- Reads the name of a local build, part by part; `fuel` bounds their number. -/
def readBuildParts? : Nat → List Char → Option (List LocalPart × List Char)
  | 0, _ => none
  | fuel + 1, cs =>
    match cs.takeWhile Char.isAlphanum with
    | [] => none
    | part =>
      match cs.dropWhile Char.isAlphanum with
      | [] => some ([localPart part], [])
      | c :: rest =>
        if isSeparator c then
          (readBuildParts? fuel rest).map fun (parts, rest) => (localPart part :: parts, rest)
        else some ([localPart part], c :: rest)

/-- Reads the optional name of a local build. -/
def readBuild? (cs : List Char) : Option (Option (List LocalPart) × List Char) :=
  match cs with
  | '+' :: rest =>
    (readBuildParts? (rest.length + 1) rest).map fun (parts, rest) => (some parts, rest)
  | _ => some (none, cs)

/-- The text without a leading v of either case. -/
def skipV : List Char → List Char
  | [] => []
  | c :: rest => if c = 'v' ∨ c = 'V' then rest else c :: rest

/-- **The version that a text spells**, blanks around it aside. -/
def ofString? (s : String) : Option Version :=
  let (epoch, cs) := readEpoch (skipV (Text.trim Text.isBlank s.toList))
  match readRelease? cs with
  | none => none
  | some (release, cs) =>
    let (pre, cs) := readPre cs
    let (post, cs) := readPost cs
    let (dev, cs) := readDev cs
    match readBuild? cs with
    | some (build, []) => some ⟨epoch, release, pre, post, dev, build⟩
    | _ => none

/-! ## Numbers that are too long -/

/-- The pieces of a text in which a class of characters is either met throughout or
not at all. -/
def pieces (p : Char → Bool) (cs : List Char) : List (List Char) :=
  cs.splitBy fun a b => p a == p b

/-- The numbers in the text of a version, in order: every run of digits up to the
local build, and in its name the parts that are nothing but digits. -/
def numerals (cs : List Char) : List (List Char) :=
  (pieces Numeral.isDigit (cs.takeWhile (· != '+')) ++
    pieces isSeparator ((cs.dropWhile (· != '+')).drop 1)).filter (·.all Numeral.isDigit)

/-- The first number in the text of a version that has too many digits. -/
def tooLong? (s : String) : Option Numeral.TooLong :=
  (numerals (Text.trim Text.isBlank s.toList)).findSome? fun digits =>
    match Numeral.boundedValue digits with
    | .ok _ => none
    | .error e => some e

/-- **Reads a version.** Only a text that spells one is asked how long its numbers
are. -/
def read (s : String) : Except Numeral.TooLong (Option Version) :=
  match ofString? s, tooLong? s with
  | none, _ => .ok none
  | some _, some e => .error e
  | some v, none => .ok (some v)

/-! ## Order -/

/-- A value among two bounds. -/
inductive Bounded (α : Type) where
  | lowest
  | value (a : α)
  | highest

/-- The order of values with bounds. -/
def Bounded.compareWith {α : Type} (cmp : α → α → Ordering) :
    Bounded α → Bounded α → Ordering
  | lowest, lowest => .eq
  | lowest, _ => .lt
  | value _, lowest => .gt
  | value a, value b => cmp a b
  | value _, highest => .lt
  | highest, highest => .eq
  | highest, _ => .gt

/-- The order of lists by their first difference, a shorter list first. -/
def compareLists {α : Type} (cmp : α → α → Ordering) : List α → List α → Ordering
  | [], [] => .eq
  | [], _ :: _ => .lt
  | _ :: _, [] => .gt
  | a :: as, b :: bs => (cmp a b).then (compareLists cmp as bs)

/-- The order of marks: by label, then by number. -/
def compareMarks (a b : String × Nat) : Ordering :=
  (compare a.1 b.1).then (compare a.2 b.2)

/-- The order of parts of a local build: words come before numbers. -/
def compareParts : LocalPart → LocalPart → Ordering
  | .word s, .word t => compare s t
  | .word _, .number _ => .lt
  | .number _, .word _ => .gt
  | .number m, .number n => compare m n

/-- The release without the zeros at its end. -/
def trimmed (v : Version) : List Nat :=
  (v.release.reverse.dropWhile (· == 0)).reverse

/-- Where a version stands among the pre-releases of its release. -/
def preRank (v : Version) : Bounded (String × Nat) :=
  match v.pre, v.post, v.dev with
  | some mark, _, _ => .value mark
  -- A development release of the release itself comes before its pre-releases.
  | none, none, some _ => .lowest
  | none, _, _ => .highest

/-- Where a version stands among the post-releases. -/
def postRank (v : Version) : Bounded (String × Nat) :=
  match v.post with
  | some mark => .value mark
  | none => .lowest

/-- Where a version stands among the development releases. -/
def devRank (v : Version) : Bounded Nat :=
  match v.dev with
  | some n => .value n
  | none => .highest

/-- Where a version stands among the local builds. -/
def buildRank (v : Version) : Bounded (List LocalPart) :=
  match v.build with
  | some parts => .value parts
  | none => .lowest

/-- The order of versions. -/
def order (v w : Version) : Ordering :=
  (compare v.epoch w.epoch).then <|
    (compareLists compare v.trimmed w.trimmed).then <|
    (v.preRank.compareWith compareMarks w.preRank).then <|
    (v.postRank.compareWith compareMarks w.postRank).then <|
    (v.devRank.compareWith compare w.devRank).then <|
    v.buildRank.compareWith (compareLists compareParts) w.buildRank

/-- Whether an installed version is at least the one that is needed; a text that
spells no version never is. The version that is needed is not looked at if there
is none installed. -/
def isSupported (installed minimum : String) : Except Numeral.TooLong Bool :=
  match read installed with
  | .error e => .error e
  | .ok none => .ok false
  | .ok (some v) =>
    match read minimum with
    | .error e => .error e
    | .ok none => .ok false
    | .ok (some w) => .ok (order v w != .lt)

end Version
end SourceDrift.Analyzer
