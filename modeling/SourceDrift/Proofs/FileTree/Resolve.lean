/-
Resolving a path that leads to a directory.

Resolving is not a walk: it goes on where something is missing, it resolves a link once and
notes what it leads to, and it goes up in the path where a walk goes up in the tree. On a
path that leads to a directory through directories and links the two agree:
`resolve_of_leads` says that the answer is the directory's own path from the root.

What has been noted is right about links that have been resolved. A link that is still
being resolved cannot be met again, because whatever is resolved inside it has fewer links
to follow than the link itself.
-/
import SourceDrift.FileTree.Resolve
import SourceDrift.Proofs.FileTree.Walk
import SourceDrift.Proofs.Path

set_option autoImplicit false

namespace SourceDrift.FileTree

variable {t : FileTree} {cwd here d : Place} {n k : Nat} {parts rest : List String} {name : String}
  {met : Met} {link p : Path}

/-! ## Parts that lead nowhere -/

theorem Leads.of_idle (hidle : isIdle name = true) (h : Leads t n here (name :: rest) d) :
    Leads t n here rest d := by
  rw [← List.singleton_append] at h
  obtain ⟨n₁, n₂, m, rfl, hfirst, hrest⟩ := h.split
  obtain ⟨rfl, rfl⟩ := hfirst.unique (.idle hidle .nil)
  rw [Nat.zero_add]
  exact hrest

theorem leads_filter :
    Leads t n here (parts.filter (!isIdle ·)) d ↔ Leads t n here parts d := by
  induction parts generalizing n here with
  | nil => exact Iff.rfl
  | cons name rest ih =>
    by_cases hidle : isIdle name = true
    · rw [List.filter_cons_of_neg (by rw [hidle]; exact Bool.false_ne_true), ih]
      exact ⟨.idle hidle, Leads.of_idle hidle⟩
    · rw [List.filter_cons_of_pos (by rw [Bool.eq_false_iff.2 hidle]; rfl)]
      constructor <;> intro h
      · obtain ⟨n₁, n₂, m, rfl, hfirst, hrest⟩ := Leads.split (List.singleton_append ▸ h)
        exact hfirst.append (ih.1 hrest)
      · obtain ⟨n₁, n₂, m, rfl, hfirst, hrest⟩ := Leads.split (List.singleton_append ▸ h)
        exact hfirst.append (ih.2 hrest)

/-- The pieces of a text between slashes. -/
def piecesOf (text : String) : List String :=
  (Text.splitOn '/' text.toList).map String.ofList

theorem filter_targetParts (target : String) :
    (targetParts target).filter (!isIdle ·) = (piecesOf target).filter (!isIdle ·) := by
  rw [targetParts, List.filter_append, List.filter_filter, ← piecesOf]
  simp only [Bool.and_self]
  -- What a target keeps at its end leads nowhere.
  split
  · exact List.append_nil _
  · exact List.append_nil _
  · exact List.append_nil _

theorem leads_targetParts (target : String) :
    Leads t n here (targetParts target) d ↔ Leads t n here (piecesOf target) d := by
  rw [← leads_filter, filter_targetParts, leads_filter]

/-! ## Places that paths name -/

/-- Whether a path, seen from a directory, names a place. -/
structure Names (cwd : Place) (p : Path) (place : Place) : Prop where
  anchor : p.anchor = "" ∨ p.anchor = "/"
  /-- From the root a path goes up by losing its last part, which must not be a double dot. -/
  notUp : p.isAbsolute = true → ".." ∉ p.parts
  parts : (p.normalize cwd).parts = place

namespace Names

theorem normalize (h : Names cwd p d) : p.normalize cwd = ⟨"/", d⟩ := by
  have hanchor : (p.normalize cwd).anchor = "/" := by
    rw [Path.normalize, Path.join]
    split
    · next habsolute =>
      refine h.anchor.resolve_left (fun hempty => ?_)
      rw [Path.isAbsolute, hempty] at habsolute
      cases habsolute
    · rfl
  rw [← h.parts, ← hanchor]

theorem child (h : Names cwd p d) (hname : name ≠ "..") :
    Names cwd (p.child name) (d ++ [name]) where
  anchor := h.anchor
  notUp habsolute hup := by
    rcases List.mem_append.1 hup with hup | hup
    · exact h.notUp habsolute hup
    · exact hname (List.mem_singleton.1 hup).symm
  parts := by rw [Path.parts_normalize_child hname, h.parts]

theorem parent (h : Names cwd p d) (hname : name ≠ "..") (hlast : p.parts.getLast? = some name) :
    Names cwd p.parent d.dropLast := by
  obtain ⟨before, hparts⟩ := List.getLast?_eq_some_iff.1 hlast
  have hp : p.parent.child name = p := by
    rw [Path.parent, Path.child, hparts, List.dropLast_concat, ← hparts]
  refine ⟨h.anchor, fun habsolute hup => h.notUp habsolute (List.dropLast_subset _ hup), ?_⟩
  rw [← h.parts, ← hp, Path.parts_normalize_child hname, List.dropLast_concat, hp]

theorem upward (h : Names cwd p d) : Names cwd (upward p) d.dropLast := by
  have hdots (hrelative : p.isAbsolute = false) : Names cwd (p.child "..") d.dropLast := by
    refine ⟨h.anchor, fun habsolute => ?_, ?_⟩
    · rw [show (p.child "..").isAbsolute = p.isAbsolute from rfl, hrelative] at habsolute
      cases habsolute
    · rw [Path.parts_normalize_child_up, h.parts]
  unfold FileTree.upward
  split
  · next habsolute =>
    cases hlast : p.parts.getLast? with
    | none =>
      -- The root is above itself.
      have hparts : p.parts = [] := List.getLast?_eq_none_iff.1 hlast
      have hparent : p.parent = p := by rw [Path.parent, hparts, List.dropLast_nil, ← hparts]
      have hroot : d = [] := by
        rw [← h.parts, Path.normalize, Path.join, if_pos habsolute, hparts]
        rfl
      subst hroot
      rw [hparent]
      exact h
    | some name =>
      refine h.parent (fun hup => h.notUp habsolute ?_) hlast
      rw [← hup]
      exact List.mem_of_getLast? hlast
  · next hrelative =>
    have hrelative := Bool.eq_false_iff.2 hrelative
    split
    · exact hdots hrelative
    · exact hdots hrelative
    · next name hne hlast => exact h.parent hne hlast

end Names
/-! ## What has been noted -/

theorem lookup_met_cons (v : Option Path) {link link' : Path} (h : link' ≠ link) :
    List.lookup link' ((link, v) :: met) = met.lookup link' := by
  rw [List.lookup_cons, beq_eq_false_iff_ne.2 h]

/-- Whether what is noted about the links that have been resolved is right. -/
def Settled (t : FileTree) (cwd : Place) (met : Met) : Prop :=
  ∀ {link p : Path} {base : Place} {name : String}, met.lookup link = some (some p) →
    Names cwd link (base ++ [name]) → ∃ n d, Leads t n base [name] d ∧ Names cwd p d

/-- Whether what has been noted about links is right while something with `k` links is
resolved. A link that is not resolved yet has more links to follow than that. -/
structure Sound (t : FileTree) (cwd : Place) (k : Nat) (met : Met) : Prop where
  settled : Settled t cwd met
  pending : ∀ {link : Path} {base : Place} {name : String}, met.lookup link = some none →
    Names cwd link (base ++ [name]) → ∃ n d, Leads t n base [name] d ∧ k < n

/-- Whether an answer is a path that names a place, with nothing wrong noted and no more
links left open than before. -/
structure Resolves (t : FileTree) (cwd : Place) (met : Met) (d : Place) (r : Resolved × Met) :
    Prop where
  whole : ∃ p, r.1 = .whole p ∧ Names cwd p d
  settled : Settled t cwd r.2
  pending : ∀ {link : Path}, r.2.lookup link = some none → met.lookup link = some none

namespace Sound

theorem mono {k' : Nat} (h : Sound t cwd k met) (hk : k' ≤ k) : Sound t cwd k' met where
  settled := h.settled
  pending hlookup hlink := by
    obtain ⟨n, d, hleads, hn⟩ := h.pending hlookup hlink
    exact ⟨n, d, hleads, Nat.lt_of_le_of_lt hk hn⟩

/-- A link has one link more to follow than its target, which may so be resolved inside it. -/
theorem inside (h : Sound t cwd k met) (hn : n ≤ k) {base : Place}
    (hlink : Names cwd link (base ++ [name])) (hleads : Leads t (n + 1) base [name] d) :
    Sound t cwd n ((link, none) :: met) where
  settled := by
    intro link' p base' name' hlookup hnames
    by_cases heq : link' = link
    · subst heq
      rw [List.lookup_cons_self] at hlookup
      cases hlookup
    · rw [lookup_met_cons none heq] at hlookup
      exact h.settled hlookup hnames
  pending := by
    intro link' base' name' hlookup hnames
    by_cases heq : link' = link
    · subst heq
      obtain ⟨rfl, hlast⟩ := List.append_inj' (hnames.parts.symm.trans hlink.parts) rfl
      cases hlast
      exact ⟨n + 1, d, hleads, Nat.lt_succ_self n⟩
    · rw [lookup_met_cons none heq] at hlookup
      exact (h.mono hn).pending hlookup hnames

/-- When the target of a link has been resolved, what it leads to may be noted for the link. -/
theorem behind (h : Sound t cwd k met) {r : Resolved × Met}
    (hr : Resolves t cwd ((link, none) :: met) d r) (hp : Names cwd p d) {base : Place}
    (hlink : Names cwd link (base ++ [name])) (hleads : Leads t n base [name] d) :
    Sound t cwd k ((link, some p) :: r.2) where
  settled := by
    intro link' p' base' name' hlookup hnames
    by_cases heq : link' = link
    · subst heq
      rw [List.lookup_cons_self] at hlookup
      cases hlookup
      obtain ⟨rfl, hlast⟩ := List.append_inj' (hnames.parts.symm.trans hlink.parts) rfl
      cases hlast
      exact ⟨n, d, hleads, hp⟩
    · rw [lookup_met_cons _ heq] at hlookup
      exact hr.settled hlookup hnames
  pending := by
    intro link' base' name' hlookup hnames
    by_cases heq : link' = link
    · subst heq
      rw [List.lookup_cons_self] at hlookup
      cases hlookup
    · rw [lookup_met_cons _ heq] at hlookup
      have hbefore := hr.pending hlookup
      rw [lookup_met_cons none heq] at hbefore
      exact h.pending hbefore hnames

end Sound

/-! ## Resolving -/

/-- What is noted behind a link that has been resolved stays as open as it was. -/
theorem Resolves.trans {d' : Place} {r r' : Resolved × Met}
    (h : Resolves t cwd ((link, none) :: met) d' r)
    (h' : Resolves t cwd ((link, some p) :: r.2) d r') :
    Resolves t cwd met d r' where
  whole := h'.whole
  settled := h'.settled
  pending := by
    intro link' hlookup
    have hafter := h'.pending hlookup
    have hne : link' ≠ link := by
      rintro rfl
      rw [List.lookup_cons_self] at hafter
      cases hafter
    rw [lookup_met_cons _ hne] at hafter
    have hbefore := h.pending hafter
    rwa [lookup_met_cons none hne] at hbefore

/-- Pieces between one link and the next: what resolves the target of a link is given. -/
theorem resolveWith_of_leads {onLink : Met → Path → String → Resolved × Met} {depth : Nat}
    (honLink : ∀ {k met here d p target}, k < depth → Sound t cwd k met → Names cwd p here →
      Leads t k (if (Path.ofString target).isAbsolute then [] else here) (piecesOf target) d →
      Resolves t cwd met d (onLink met p target))
    (hk : k ≤ depth) (hsound : Sound t cwd k met) (hhere : Names cwd p here)
    (hleads : Leads t k here parts d) :
    Resolves t cwd met d (resolveWith onLink t cwd met p parts) := by
  induction parts generalizing k here p met with
  | nil =>
    cases hleads
    exact ⟨⟨p, rfl, hhere⟩, hsound.settled, id⟩
  | cons name rest ih =>
    rw [resolveWith]
    cases hleads with
    | idle hidle hrest =>
      rw [if_pos hidle]
      exact ih hk hsound hhere hrest
    | up hrest =>
      rw [if_neg (by decide), if_pos rfl]
      exact ih hk hsound hhere.upward hrest
    | down hname hnode hrest =>
      have hchild := hhere.child hname.notUp
      rw [if_neg (by rw [hname.notIdle]; exact Bool.false_ne_true), if_neg hname.notUp]
      dsimp only
      rw [hchild.parts, hnode]
      exact ih hk hsound hchild hrest
    | link hname hnode hrest =>
      have hchild := hhere.child hname.notUp
      rw [if_neg (by rw [hname.notIdle]; exact Bool.false_ne_true), if_neg hname.notUp]
      dsimp only
      rw [hchild.parts, hnode]
      dsimp only
      obtain ⟨n₁, n₂, m, rfl, htarget, hbehind⟩ := hrest.split
      have hfirst : Leads t (n₁ + 1) here [name] m :=
        .link hname hnode (by rw [List.append_nil]; exact htarget)
      cases hlookup : met.lookup (p.child name) with
      | none =>
        have hinside := hsound.inside (by omega) hchild hfirst
        have hr := honLink (by omega) hinside hhere ((leads_targetParts _).1 htarget)
        dsimp only
        generalize onLink ((p.child name, none) :: met) p _ = r at hr
        obtain ⟨answer, met'⟩ := r
        obtain ⟨q, rfl, hnames⟩ := hr.whole
        have hrest : Sound t cwd n₂ ((p.child name, some q) :: met') :=
          (hsound.mono (by omega)).behind hr hnames hchild hfirst
        exact hr.trans (ih (by omega) hrest hnames hbehind)
      | some noted =>
        cases noted with
        | none =>
          -- Met again, the link would have fewer links to follow than it has.
          obtain ⟨n, d, hagain, hn⟩ := hsound.pending hlookup hchild
          obtain ⟨rfl, -⟩ := hagain.unique hfirst
          omega
        | some q =>
          obtain ⟨n, d, hagain, hnames⟩ := hsound.settled hlookup hchild
          obtain ⟨-, rfl⟩ := hagain.unique hfirst
          exact ih (by omega) (hsound.mono (by omega)) hnames hbehind

theorem resolveFrom_of_leads {depth : Nat} {text : String} (hk : k < depth)
    (hsound : Sound t cwd k met) (hhere : Names cwd p here)
    (hleads : Leads t k (if (Path.ofString text).isAbsolute then [] else here) (piecesOf text) d) :
    Resolves t cwd met d (resolveFrom t cwd depth met p text) := by
  induction depth generalizing k met p here d text with
  | zero => omega
  | succ depth ih =>
    rw [resolveFrom]
    refine resolveWith_of_leads (fun hk hsound hhere hleads => ih hk hsound hhere hleads)
      (Nat.le_of_lt_succ hk) hsound ?_ hleads
    split
    · exact ⟨.inr rfl, fun _ => List.not_mem_nil, rfl⟩
    · exact hhere

/-- A directory is found from the root without following a link. -/
theorem status_of_grounded (hd : Grounded t d) (path : String) :
    t.status cwd ⟨"/", d⟩ ≠ .error (.system .tooManyLinks path) := by
  intro hstatus
  by_cases hpass : Passable ⟨"/", d⟩
  · have hfound : t.status cwd ⟨"/", d⟩ = .ok .directory :=
      status_eq_ok.2 ⟨d, locate_eq_ok.2 ⟨hpass, walk_directory hd.leads (Nat.zero_le 40)⟩, hd.node⟩
    rw [hfound] at hstatus
    cases hstatus
  · unfold status at hstatus
    rcases locate_of_not_passable .target hpass with hlocate | hlocate
    · rw [hlocate] at hstatus
      cases hstatus
    · rw [hlocate] at hstatus
      cases hstatus

/-- **A path that leads to a directory resolves to the directory's own path.** -/
theorem resolve_of_leads (hcwd : Grounded t cwd) (hp : p.Proper) (hnul : p.hasNul = false)
    (hk : k ≤ 40) (hleads : Leads t k (startOf cwd p) p.parts d) :
    t.resolve cwd p = .ok ⟨"/", d⟩ := by
  -- At the start nothing has been noted.
  have hnothing : Sound t cwd k [] := by
    constructor
    · intro link p base name hlookup
      cases hlookup
    · intro link base name hlookup
      cases hlookup
  have hstart : Names cwd ⟨"", []⟩ cwd := by
    refine ⟨.inl rfl, fun _ => List.not_mem_nil, ?_⟩
    show Path.resolveDots [] (cwd ++ []) = cwd
    rw [List.append_nil]
    exact Path.resolveDots_of_not_mem fun hup => (hcwd.isName _ hup).notUp rfl
  have hresolves : Resolves t cwd [] d
      (t.resolveFrom cwd ((cwd.length + 2) * (t.entries.length + 1) + 41) []
        ⟨"", []⟩ p.toString) := by
    refine resolveFrom_of_leads (by omega) hnothing hstart ?_
    rw [← leads_filter, piecesOf, Path.filter_pieces, hp.ofString_toString]
    exact hleads
  obtain ⟨q, hq, hnames⟩ := hresolves.whole
  rw [resolve, hnul, if_neg Bool.false_ne_true]
  dsimp only
  rw [hq, Resolved.path, hnames.normalize]
  split
  · next hstatus => exact absurd hstatus (status_of_grounded (hleads.grounded (hcwd.startOf p)) _)
  · rfl

end SourceDrift.FileTree
