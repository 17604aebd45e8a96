/-
The path of a place, with every link resolved.

Unlike a walk, resolving never fails because something is missing: what is not
there is taken as named. A link is resolved as a whole before the parts behind it,
and once only: what it leads to is noted under the path by which it was met. A
link that is met again while it is being resolved has no end, and the rest of the
path is then left as it is.

A path may be met relative to the current directory or from the root, and these
count as two. How many paths a link can be met by bounds how deep the resolving
goes.
-/
import SourceDrift.FileTree.Walk

set_option autoImplicit false

namespace SourceDrift.FileTree

/-- What resolving leads to: a path without links, or one that ends in what could not
be resolved. -/
inductive Resolved where
  | whole (p : Path)
  | stuck (p : Path)

namespace Resolved

/-- The path, resolved as far as it goes. -/
def path : Resolved → Path
  | whole p => p
  | stuck p => p

end Resolved

/-- The links that have been met, the latest first: what each leads to, and nothing
for one that is still being resolved. -/
abbrev Met := List (Path × Option Path)

/-- The path one directory up. A relative path may lead above its start. -/
def upward (p : Path) : Path :=
  if p.isAbsolute then p.parent
  else
    match p.parts.getLast? with
    | none | some ".." => p.child ".."
    | some _ => p.parent

/-- A path with the pieces that are left behind it. -/
def withRest (p : Path) (rest : List String) : Path :=
  p.join (Path.ofString ("/".intercalate rest))

/-- Resolves the pieces of a text seen from a path. `onLink` resolves the target of a
link, seen from the directory that it stands in. -/
def resolveWith (onLink : Met → Path → String → Resolved × Met) (t : FileTree) (cwd : Place)
    (met : Met) (here : Path) : List String → Resolved × Met
  | [] => (.whole here, met)
  | name :: rest =>
    if isIdle name then resolveWith onLink t cwd met here rest
    else if name = ".." then resolveWith onLink t cwd met (upward here) rest
    else
      let link := here.child name
      match t.node? (link.normalize cwd).parts with
      | some (.link target) =>
        match met.lookup link with
        | some (some p) => resolveWith onLink t cwd met p rest
        | some none => (.stuck (withRest link rest), met)
        | none =>
          match onLink ((link, none) :: met) here target with
          | (.whole p, met) => resolveWith onLink t cwd ((link, some p) :: met) p rest
          | (.stuck p, met) => (.stuck (withRest p rest), met)
      | _ => resolveWith onLink t cwd met link rest

/-- Resolves a text seen from a path, with at most `depth` links inside each other. -/
def resolveFrom (t : FileTree) (cwd : Place) : Nat → Met → Path → String → Resolved × Met
  | 0, met, here, text => (.stuck (here.join (Path.ofString text)), met)
  | depth + 1, met, here, text =>
    resolveWith (resolveFrom t cwd depth) t cwd met
      (if (Path.ofString text).isAbsolute then ⟨"/", []⟩ else here)
      ((Text.splitOn '/' text.toList).map String.ofList)

/-- **The path of a place with every link resolved**, seen from a directory. -/
def resolve (t : FileTree) (cwd : Place) (p : Path) : Except Failure Path :=
  if p.hasNul then .error .embeddedNul
  else
    -- As deep as links can be inside each other, or as a walk follows them.
    let depth := (cwd.length + 2) * (t.entries.length + 1) + 41
    let path := ((t.resolveFrom cwd depth [] ⟨"", []⟩ p.toString).1.path).normalize cwd
    match t.status cwd path with
    | .error (.system .tooManyLinks _) => .error (.linkLoop path.toString)
    | _ => .ok path

end SourceDrift.FileTree
