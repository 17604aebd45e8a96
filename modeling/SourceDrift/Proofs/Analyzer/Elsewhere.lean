/-
One analysis in two worlds.

What an analysis comes to is decided by the program, by what it is told, and by what it leaves in
the place of its document. Of the files of the world only the way to this place matters: once
it has been cleared, and as long as no link stood in it, the same document is put down and read
in any world.
-/
import SourceDrift.Proofs.Analyzer.Run

set_option autoImplicit false

namespace SourceDrift.Analyzer

open FileTree SourceDrift.Action

variable {t : FileTree} {cwd d : Place} {h h' g g' : Host} {root p : Path} {name solc : String}
  {timeout : Int} {result result' : RunResult} {u : Unit}

/-! ## The place of the document -/

/-- Whether a path leads to a directory in which nothing has a name. -/
structure Cleared (t : FileTree) (cwd : Place) (p : Path) (name : String) (d : Place) : Prop where
  grounded : Grounded t cwd
  passable : Passable (p.child name)
  leads : ∃ n, n ≤ 40 ∧ Leads t n (startOf cwd p) p.parts d
  free : t.node? (d ++ [name]) = none

/-- What is found where a run has left something. -/
def left (output : Path) : Leaving → Except Failure Node
  | .nothing => .error (.system .notFound output.toString)
  | .file bytes => .ok (.file bytes)
  | .directory => .ok .directory

/-- A path from the root leads to the cleared place from everywhere, as long as there is no link. -/
theorem Cleared.locate {t' : FileTree} (hcleared : Cleared t cwd p name d) (hname : IsName name)
    (habsolute : p.isAbsolute = true) (hways : WaysIn t t')
    (hunlinked : ∀ target, t'.node? (d ++ [name]) ≠ some (.link target)) (here : Place)
    (aim : Aim) :
    t'.locate here aim (p.child name) = .ok (d ++ [name]) := by
  obtain ⟨n, hn, hleads⟩ := hcleared.leads
  have hstart : startOf here p = startOf cwd p := by
    rw [startOf, startOf, if_pos habsolute, if_pos habsolute]
  rw [← hstart] at hleads
  exact (locate_child hname.notIdle).2
    ⟨hcleared.passable, n, d, hn, hleads.mono hways, walk_unlinked hname hunlinked⟩

/-- What is put into the cleared place is found there. -/
theorem Cleared.status_insert {node : Node} (hcleared : Cleared t cwd p name d)
    (hname : IsName name)
    (habsolute : p.isAbsolute = true) (hnode : ∀ target, node ≠ .link target) :
    (t.insert (d ++ [name]) node).status cwd (p.child name) = .ok node := by
  have hself : (t.insert (d ++ [name]) node).node? (d ++ [name]) = some node :=
    node?_insert_self (by simp)
  refine status_eq_ok.2 ⟨d ++ [name], ?_, hself⟩
  refine hcleared.locate hname habsolute (extends_insert hcleared.free).waysIn ?_ cwd .target
  rw [hself]
  rintro target heq
  exact hnode target (Option.some.inj heq)

/-- **What a run leaves in a cleared place is found there**, and nothing if it leaves nothing. No
run is kept from writing there. -/
theorem Cleared.putDown (hcleared : Cleared t cwd p name d) (hname : IsName name)
    (habsolute : p.isAbsolute = true) (directory : Place) (leaving : Leaving) :
    (putDown t directory (p.child name) leaving).2 = none ∧
      (putDown t directory (p.child name) leaving).1.status cwd (p.child name) =
        left (p.child name) leaving := by
  have hfree := hcleared.free
  have hlocate := hcleared.locate hname habsolute (.refl t) (by rw [hfree]; rintro target ⟨⟩)
  cases leaving with
  | nothing =>
    refine ⟨rfl, ?_⟩
    rw [Analyzer.putDown, status, hlocate cwd .target]
    dsimp only
    rw [hfree]
    rfl
  | file bytes =>
    rw [Analyzer.putDown, writeFile, hlocate directory .writing]
    dsimp only
    rw [hfree]
    exact ⟨rfl, hcleared.status_insert hname habsolute (fun _ heq => by cases heq)⟩
  | directory =>
    rw [Analyzer.putDown, makeDirectory, hlocate directory .entry]
    dsimp only
    rw [hfree]
    exact ⟨rfl, hcleared.status_insert hname habsolute (fun _ heq => by cases heq)⟩

/-- The directory above a cleared place is one that a run can work in. -/
theorem Cleared.runDirectory {below : String}
    (hcleared : Cleared h.files h.cwd (root.child below) name d)
    (hroot : Passable root) : ∃ place, runDirectory h (some root) = .ok place := by
  obtain ⟨n, hn, hleads⟩ := hcleared.leads
  obtain ⟨n₁, n₂, place, rfl, hfirst, -⟩ :=
    Leads.split (show Leads h.files n (startOf h.cwd root) (root.parts ++ [below]) d from hleads)
  have hlocate : h.files.locate h.cwd .target root = .ok place :=
    locate_eq_ok.2 ⟨hroot, walk_directory hfirst (by omega)⟩
  rw [Analyzer.runDirectory, hlocate]
  dsimp only
  rw [(hfirst.grounded (hcleared.grounded.startOf root)).node]
  exact ⟨place, rfl⟩

/-! ## The run -/

end SourceDrift.Analyzer
