/-
Where the text of a path and the tree agree.

The comparable form of a path takes a double dot back together with the part before it, and a
walk goes to the directory above wherever it is. The two agree as long as no link is followed:
then the place of a walk is made of the parts that are left of the text. So a path is straight
if it leads to directories, without a link, as far as its last double dot. What comes behind
may run through links, or be missing.

Straight paths with one comparable form lead to the same places.
-/
import SourceDrift.Proofs.FileTree.Walk
import SourceDrift.Proofs.Path

set_option autoImplicit false

namespace SourceDrift

/-! ## Comparable forms -/

namespace Path

variable {p p' : Path} {cwd : List String}

theorem mem_of_mem_resolveDots {above parts : List String} {part : String}
    (h : part ∈ resolveDots above parts) : part ∈ above ∨ part ∈ parts := by
  induction parts generalizing above with
  | nil =>
    rw [resolveDots, List.mem_reverse] at h
    exact .inl h
  | cons first rest ih =>
    rw [resolveDots] at h
    split at h
    · rcases ih h with h | h
      · exact .inl (List.mem_of_mem_tail h)
      · exact .inr (List.mem_cons_of_mem _ h)
    · rcases ih h with h | h
      · rcases List.mem_cons.1 h with rfl | h
        · exact .inr List.mem_cons_self
        · exact .inl h
      · exact .inr (List.mem_cons_of_mem _ h)

theorem Proper.normalize (hp : p.Proper) (hcwd : ∀ name ∈ cwd, IsPart name) :
    (p.normalize cwd).Proper := by
  have hjoin : (Path.join ⟨"/", cwd⟩ p).Proper := by
    unfold join
    split
    · exact hp
    · refine ⟨.inr (.inl rfl), fun part hpart => ?_⟩
      rcases List.mem_append.1 hpart with hpart | hpart
      · exact hcwd part hpart
      · exact hp.parts part hpart
  refine ⟨hjoin.anchor, fun part hpart => ?_⟩
  rcases mem_of_mem_resolveDots hpart with hpart | hpart
  · exact absurd hpart List.not_mem_nil
  · exact hjoin.parts part hpart

/-- **Paths with one key have one normal form**, since its text names it. -/
theorem normalize_eq_of_key (hp : p.Proper) (hp' : p'.Proper) (hcwd : ∀ name ∈ cwd, IsPart name)
    (hkey : p.key cwd = p'.key cwd) : p.normalize cwd = p'.normalize cwd := by
  rw [← (hp.normalize hcwd).ofString_toString, ← (hp'.normalize hcwd).ofString_toString]
  exact congrArg ofString hkey

end Path

namespace FileTree

variable {t : FileTree} {n : Nat} {cwd here d : Place} {parts : List String} {p p' : Path}

/-- The normal form of a path resolves its double dots from where the path starts. -/
theorem parts_normalize (hcwd : ".." ∉ cwd) (p : Path) :
    (p.normalize cwd).parts = Path.resolveDots (startOf cwd p).reverse p.parts := by
  unfold Path.normalize Path.join startOf
  split
  · rfl
  · show Path.resolveDots [] (cwd ++ p.parts) = _
    rw [Path.resolveDots_append, Path.resolveDots_of_not_mem hcwd]
    rfl

/-! ## Ways without links -/

/-- **Without a link the place is what the text comes to.** The induction is on the way: the
parts so far, last first, are the place turned around. -/
theorem Leads.eq_resolveDots (h : Leads t n here parts d) (hlinks : n = 0)
    (hparts : ∀ part ∈ parts, Path.IsPart part) : Path.resolveDots here.reverse parts = d := by
  induction h with
  | nil => exact List.reverse_reverse _
  | idle hidle _ _ =>
    rw [(hparts _ List.mem_cons_self).notIdle] at hidle
    cases hidle
  | up _ ih =>
    rw [Path.resolveDots, if_pos rfl, List.tail_reverse]
    exact ih hlinks fun part hpart => hparts part (List.mem_cons_of_mem _ hpart)
  | down hname _ _ ih =>
    rw [Path.resolveDots, if_neg hname.notUp]
    have hrest := ih hlinks fun part hpart => hparts part (List.mem_cons_of_mem _ hpart)
    rwa [List.reverse_concat] at hrest
  | link _ _ _ _ => cases hlinks

/-- Whether a path leads to directories, without a link, as far as its last double dot. -/
def Straight (t : FileTree) (cwd : Place) (p : Path) : Prop :=
  ∃ before behind middle, p.parts = before ++ behind ∧ ".." ∉ behind ∧
    Leads t 0 (startOf cwd p) before middle

/-- What has no double dot is straight. -/
theorem straight_of_not_mem (hp : ".." ∉ p.parts) : Straight t cwd p :=
  ⟨[], p.parts, startOf cwd p, rfl, hp, .nil⟩

/-- **A straight path leads to where its normal form leads from the root.** -/
theorem Straight.leads_iff (hp : Straight t cwd p) (hcwd : Grounded t cwd) (hproper : p.Proper) :
    Leads t n (startOf cwd p) p.parts d ↔ Leads t n [] (p.normalize cwd).parts d := by
  obtain ⟨before, behind, middle, hparts, hup, hbefore⟩ := hp
  have hnormal : (p.normalize cwd).parts = middle ++ behind := by
    rw [parts_normalize (fun hmem => (hcwd.isName _ hmem).notUp rfl), hparts,
      Path.resolveDots_append, hbefore.eq_resolveDots rfl, Path.resolveDots_of_not_mem hup,
      List.reverse_reverse]
    intro part hpart
    exact hproper.parts part (hparts ▸ List.mem_append_left _ hpart)
  have hmiddle := (hbefore.grounded (hcwd.startOf p)).leads
  rw [hparts, hnormal]
  -- Both ways pass through the same directory, from where they are one.
  constructor
  · intro h
    obtain ⟨n₁, n₂, m, rfl, hfirst, hsecond⟩ := h.split
    obtain ⟨rfl, rfl⟩ := hfirst.unique hbefore
    exact hmiddle.append hsecond
  · intro h
    obtain ⟨n₁, n₂, m, rfl, hfirst, hsecond⟩ := h.split
    obtain ⟨rfl, rfl⟩ := hfirst.unique hmiddle
    exact hbefore.append hsecond

/-- **Straight paths with one normal form lead to the same directory.** -/
theorem Straight.leads_congr (hp : Straight t cwd p) (hp' : Straight t cwd p')
    (hcwd : Grounded t cwd) (hproper : p.Proper) (hproper' : p'.Proper)
    (hnormal : p.normalize cwd = p'.normalize cwd) :
    Leads t n (startOf cwd p) p.parts d ↔ Leads t n (startOf cwd p') p'.parts d := by
  rw [hp.leads_iff hcwd hproper, hp'.leads_iff hcwd hproper', hnormal]

end FileTree
end SourceDrift
