/-
Duplicates among findings.

Two findings are duplicates when their canonical forms are equal. `distinct` keeps
the first finding of each form; `duplicates` pairs each of the others with the
one that was kept.
-/
import SourceDrift.Finding.Document

set_option autoImplicit false

namespace SourceDrift.Finding

/-- The findings whose form is neither in `seen` nor that of an earlier one. -/
def distinctFrom (seen : List String) : List Finding → List Finding
  | [] => []
  | f :: rest =>
    if seen.contains f.canonical then distinctFrom seen rest
    else f :: distinctFrom (f.canonical :: seen) rest

/-- **The findings without their duplicates**, in order, the first of each form. -/
def distinct (fs : List Finding) : List Finding :=
  distinctFrom [] fs

/-- The first finding of a form, among findings listed with their forms. -/
def firstOf? (form : String) (firsts : List (String × Finding)) : Option Finding :=
  (firsts.find? fun entry => entry.1 == form).map (·.2)

/-- The duplicates of `firsts` and of each other, each with the first finding of
its form. -/
def duplicatesFrom (firsts : List (String × Finding)) : List Finding → List (Finding × Finding)
  | [] => []
  | f :: rest =>
    match firstOf? f.canonical firsts with
    | some first => (f, first) :: duplicatesFrom firsts rest
    | none => duplicatesFrom ((f.canonical, f) :: firsts) rest

/-- **The duplicates**, each paired with the finding that is kept in its place. -/
def duplicates (fs : List Finding) : List (Finding × Finding) :=
  duplicatesFrom [] fs

end SourceDrift.Finding
