/-
Where parts of a path lead.

A walk stops with an error for many reasons and counts the links it may still follow. Both
are in the way of an argument about two walks, so walks are given once more as relations.
`Walks` is a walk that has an answer, step by step: `walk_eq_ok` says that it is just that,
and what is said about all walks with an answer is shown by induction on their steps.

`Leads t n here parts d` says that the parts, followed from a place, lead to a directory by
way of directories and `n` links. `walk_append` and `exists_leads_of_walk` say that a walk
does just this until its last part. This relation is made of what is there and nothing else.
So it holds in every tree that has the same directories and links, and it leads to one place
only.
-/
import SourceDrift.FileTree.Walk

set_option autoImplicit false

namespace SourceDrift.FileTree

/-! ## Names and directories -/

/-- Whether a part names an entry of a directory. -/
structure IsName (name : String) : Prop where
  notIdle : isIdle name = false
  notUp : name ≠ ".."
  notLong : isLongName name = false

/-- Whether a place is a directory among directories, all the way from the root. -/
inductive Grounded (t : FileTree) : Place → Prop
  | root : Grounded t []
  | down {d : Place} {name : String} : Grounded t d → IsName name →
      t.node? (d ++ [name]) = some .directory → Grounded t (d ++ [name])

/-- Whether parts lead from a place to another through directories and `n` links. -/
inductive Leads (t : FileTree) : Nat → Place → List String → Place → Prop
  | nil {here : Place} : Leads t 0 here [] here
  | idle {n : Nat} {here d : Place} {name : String} {rest : List String} :
      isIdle name = true → Leads t n here rest d → Leads t n here (name :: rest) d
  | up {n : Nat} {here d : Place} {rest : List String} :
      Leads t n here.dropLast rest d → Leads t n here (".." :: rest) d
  | down {n : Nat} {here d : Place} {name : String} {rest : List String} :
      IsName name → t.node? (here ++ [name]) = some .directory →
      Leads t n (here ++ [name]) rest d → Leads t n here (name :: rest) d
  | link {n : Nat} {here d : Place} {name target : String} {rest : List String} :
      IsName name → t.node? (here ++ [name]) = some (.link target) →
      Leads t n (if (Path.ofString target).isAbsolute then [] else here)
        (targetParts target ++ rest) d → Leads t (n + 1) here (name :: rest) d

variable {t t' : FileTree} {n n' links : Nat} {here d d' q : Place} {parts rest : List String}
  {name : String} {aim : Aim}

/-- Whether a tree's directories and links are all in another. What is at any other place
does not matter to a way through the tree. -/
structure WaysIn (t t' : FileTree) : Prop where
  directory : ∀ {q : Place}, t.node? q = some .directory → t'.node? q = some .directory
  link : ∀ {q : Place} {target : String}, t.node? q = some (.link target) →
    t'.node? q = some (.link target)

namespace Grounded

theorem node (h : Grounded t d) : t.node? d = some .directory := by
  cases h with
  | root => rfl
  | down _ _ hnode => exact hnode

theorem dropLast (h : Grounded t d) : Grounded t d.dropLast := by
  cases h with
  | root => exact root
  | down hd _ _ =>
    rw [List.dropLast_concat]
    exact hd

theorem isName (h : Grounded t d) : ∀ name ∈ d, IsName name := by
  induction h with
  | root => exact fun _ hmem => absurd hmem List.not_mem_nil
  | down _ hname _ ih =>
    intro name hmem
    rcases List.mem_append.1 hmem with hmem | hmem
    · exact ih name hmem
    · rw [List.mem_singleton.1 hmem]
      exact hname

theorem mono (h : Grounded t d)
    (hdir : ∀ {q : Place}, t.node? q = some .directory → t'.node? q = some .directory) :
    Grounded t' d := by
  induction h with
  | root => exact root
  | down _ hname hnode ih => exact down ih hname (hdir hnode)

end Grounded

/-! ## The relation -/

namespace Leads

theorem grounded (h : Leads t n here parts d) (hhere : Grounded t here) : Grounded t d := by
  induction h with
  | nil => exact hhere
  | idle _ _ ih => exact ih hhere
  | up _ ih => exact ih hhere.dropLast
  | down hname hnode _ ih => exact ih (hhere.down hname hnode)
  | link _ _ _ ih =>
    refine ih ?_
    split
    · exact .root
    · exact hhere

/-- **Parts lead to one place only**, and by one number of links. -/
theorem unique (h : Leads t n here parts d) (h' : Leads t n' here parts d') : n = n' ∧ d = d' := by
  have hup : isIdle ".." = false := rfl
  induction h generalizing n' d' with
  | nil =>
    cases h'
    exact ⟨rfl, rfl⟩
  | idle hidle _ ih =>
    cases h' with
    | idle _ h' => exact ih h'
    | up _ => rw [hup] at hidle; cases hidle
    | down hname _ _ => rw [hname.notIdle] at hidle; cases hidle
    | link hname _ _ => rw [hname.notIdle] at hidle; cases hidle
  | up _ ih =>
    cases h' with
    | idle hidle _ => rw [hup] at hidle; cases hidle
    | up h' => exact ih h'
    | down hname _ _ => exact absurd rfl hname.notUp
    | link hname _ _ => exact absurd rfl hname.notUp
  | down hname hnode _ ih =>
    cases h' with
    | idle hidle _ => rw [hname.notIdle] at hidle; cases hidle
    | up _ => exact absurd rfl hname.notUp
    | down _ _ h' => exact ih h'
    | link _ hnode' _ => rw [hnode] at hnode'; cases hnode'
  | link hname hnode _ ih =>
    cases h' with
    | idle hidle _ => rw [hname.notIdle] at hidle; cases hidle
    | up _ => exact absurd rfl hname.notUp
    | down _ hnode' _ => rw [hnode] at hnode'; cases hnode'
    | link _ hnode' h' =>
      rw [hnode] at hnode'
      cases hnode'
      obtain ⟨rfl, rfl⟩ := ih h'
      exact ⟨rfl, rfl⟩

theorem mono (h : Leads t n here parts d) (hways : WaysIn t t') : Leads t' n here parts d := by
  induction h with
  | nil => exact nil
  | idle hidle _ ih => exact idle hidle ih
  | up _ ih => exact up ih
  | down hname hnode _ ih => exact down hname (hways.directory hnode) ih
  | link hname hnode _ ih => exact link hname (hways.link hnode) ih

theorem append (h : Leads t n here parts d) (h' : Leads t n' d rest d') :
    Leads t (n + n') here (parts ++ rest) d' := by
  induction h with
  | nil =>
    rw [Nat.zero_add]
    exact h'
  | idle hidle _ ih => exact idle hidle (ih h')
  | up _ ih => exact up (ih h')
  | down hname hnode _ ih => exact down hname hnode (ih h')
  | link hname hnode _ ih =>
    have hrest := ih h'
    rw [List.append_assoc] at hrest
    rw [Nat.add_right_comm]
    exact link hname hnode hrest

theorem split (h : Leads t n here (parts ++ rest) d) :
    ∃ n₁ n₂ m, n = n₁ + n₂ ∧ Leads t n₁ here parts m ∧ Leads t n₂ m rest d := by
  generalize hall : parts ++ rest = all at h
  induction h generalizing parts with
  | nil =>
    obtain ⟨rfl, rfl⟩ := List.append_eq_nil_iff.1 hall
    exact ⟨0, 0, _, rfl, nil, nil⟩
  | idle hidle h ih =>
    rcases List.append_eq_cons_iff.1 hall with ⟨rfl, rfl⟩ | ⟨parts, rfl, rfl⟩
    · exact ⟨0, _, _, (Nat.zero_add _).symm, nil, idle hidle h⟩
    · obtain ⟨n₁, n₂, m, hn, hfirst, hsecond⟩ := ih rfl
      exact ⟨n₁, n₂, m, hn, idle hidle hfirst, hsecond⟩
  | up h ih =>
    rcases List.append_eq_cons_iff.1 hall with ⟨rfl, rfl⟩ | ⟨parts, rfl, rfl⟩
    · exact ⟨0, _, _, (Nat.zero_add _).symm, nil, up h⟩
    · obtain ⟨n₁, n₂, m, hn, hfirst, hsecond⟩ := ih rfl
      exact ⟨n₁, n₂, m, hn, up hfirst, hsecond⟩
  | down hname hnode h ih =>
    rcases List.append_eq_cons_iff.1 hall with ⟨rfl, rfl⟩ | ⟨parts, rfl, rfl⟩
    · exact ⟨0, _, _, (Nat.zero_add _).symm, nil, down hname hnode h⟩
    · obtain ⟨n₁, n₂, m, hn, hfirst, hsecond⟩ := ih rfl
      exact ⟨n₁, n₂, m, hn, down hname hnode hfirst, hsecond⟩
  | link hname hnode h ih =>
    rcases List.append_eq_cons_iff.1 hall with ⟨rfl, rfl⟩ | ⟨parts, rfl, rfl⟩
    · exact ⟨0, _, _, (Nat.zero_add _).symm, nil, link hname hnode h⟩
    · obtain ⟨n₁, n₂, m, hn, hfirst, hsecond⟩ := ih (List.append_assoc ..)
      exact ⟨n₁ + 1, n₂, m, by omega, link hname hnode hfirst, hsecond⟩

end Leads

/-- The names of a place lead to it from the root. -/
theorem Grounded.leads (h : Grounded t d) : Leads t 0 [] d d := by
  induction h with
  | root => exact .nil
  | down _ hname hnode ih => exact ih.append (.down hname hnode .nil)

/-! ## Walks -/

section

variable {onLink : Place → List String → Except SystemError Place}

theorem walkWith_idle (hidle : isIdle name = true) :
    walkWith onLink t aim here (name :: rest) = walkWith onLink t aim here rest := by
  rw [walkWith, if_pos hidle]

theorem walkWith_up :
    walkWith onLink t aim here (".." :: rest) = walkWith onLink t aim here.dropLast rest := by
  rw [walkWith, if_neg (by decide), if_pos rfl]

/-- A name is looked up, unless a file is asked for under a name with a slash behind it. -/
theorem walkWith_name (hname : IsName name) (haim : ¬(aim = .writing ∧ rest = [""])) :
    walkWith onLink t aim here (name :: rest) =
      match t.node? (here ++ [name]) with
      | none => if rest.isEmpty then .ok (here ++ [name]) else .error .notFound
      | some .directory => walkWith onLink t aim (here ++ [name]) rest
      | some (.file _) => if rest.isEmpty then .ok (here ++ [name]) else .error .notADirectory
      | some (.link target) =>
        if rest.isEmpty ∧ aim = .entry then .ok (here ++ [name])
        else
          onLink (if (Path.ofString target).isAbsolute then [] else here)
            (targetParts target ++ rest) := by
  have hlong : ¬isLongName name = true := by rw [hname.notLong]; exact Bool.false_ne_true
  have hidle : ¬isIdle name = true := by rw [hname.notIdle]; exact Bool.false_ne_true
  rewrite [walkWith, if_neg hidle, if_neg hname.notUp, if_neg haim, if_neg hlong]
  rcases t.node? (here ++ [name]) with _ | _ | _ | _ <;> rfl

/-- A walk that has an answer takes each part for a name, a double dot, or nothing. -/
theorem walkWith_cases (h : walkWith onLink t aim here (name :: rest) = .ok q) :
    isIdle name = true ∨ name = ".." ∨ IsName name ∧ ¬(aim = .writing ∧ rest = [""]) := by
  by_cases hidle : isIdle name = true
  · exact .inl hidle
  by_cases hup : name = ".."
  · exact .inr (.inl hup)
  rw [walkWith, if_neg hidle, if_neg hup] at h
  by_cases haim : aim = .writing ∧ rest = [""]
  · rw [if_pos haim] at h
    cases h
  rw [if_neg haim] at h
  by_cases hlong : isLongName name = true
  · rw [if_pos hlong] at h
    cases h
  · exact .inr (.inr ⟨⟨Bool.eq_false_iff.2 hidle, hup, Bool.eq_false_iff.2 hlong⟩, haim⟩)

end

/-- Where a walk goes on behind a link. -/
theorem walk_succ : walk t aim (links + 1) here parts =
    walkWith (walk t aim links) t aim here parts :=
  rfl

theorem walk_eq_walkWith (t : FileTree) (aim : Aim) (links : Nat) :
    ∃ onLink, walk t aim links = walkWith onLink t aim := by
  cases links with
  | zero => exact ⟨_, rfl⟩
  | succ links => exact ⟨_, rfl⟩

theorem walk_nil : walk t aim links here [] = .ok here := by
  obtain ⟨onLink, hwalk⟩ := walk_eq_walkWith t aim links
  rw [hwalk, walkWith]

theorem walk_idle (hidle : isIdle name = true) :
    walk t aim links here (name :: rest) = walk t aim links here rest := by
  obtain ⟨onLink, hwalk⟩ := walk_eq_walkWith t aim links
  rw [hwalk, walkWith_idle hidle]

theorem walk_up : walk t aim links here (".." :: rest) = walk t aim links here.dropLast rest := by
  obtain ⟨onLink, hwalk⟩ := walk_eq_walkWith t aim links
  rw [hwalk, walkWith_up]

theorem walk_down (hname : IsName name) (haim : ¬(aim = .writing ∧ rest = [""]))
    (hnode : t.node? (here ++ [name]) = some .directory) :
    walk t aim links here (name :: rest) = walk t aim links (here ++ [name]) rest := by
  obtain ⟨onLink, hwalk⟩ := walk_eq_walkWith t aim links
  rw [hwalk, walkWith_name hname haim, hnode]

theorem walk_missing (hname : IsName name) (haim : ¬(aim = .writing ∧ rest = [""]))
    (hnode : t.node? (here ++ [name]) = none) :
    walk t aim links here (name :: rest) =
      if rest.isEmpty then .ok (here ++ [name]) else .error .notFound := by
  obtain ⟨onLink, hwalk⟩ := walk_eq_walkWith t aim links
  rw [hwalk, walkWith_name hname haim, hnode]

theorem walk_link {target : String} (hname : IsName name) (haim : ¬(aim = .writing ∧ rest = [""]))
    (hnode : t.node? (here ++ [name]) = some (.link target)) (hends : ¬(rest = [] ∧ aim = .entry)) :
    walk t aim (links + 1) here (name :: rest) =
      walk t aim links (if (Path.ofString target).isAbsolute then [] else here)
        (targetParts target ++ rest) := by
  rw [walk_succ, walkWith_name hname haim, hnode]
  exact if_neg (by rwa [List.isEmpty_iff])

/-- Whether a walk that reaches a place with its last part ends there. -/
structure IsEnd (t : FileTree) (aim : Aim) (q : Place) : Prop where
  notDirectory : t.node? q ≠ some .directory
  notFollowed : aim = .entry ∨ ∀ target, t.node? q ≠ some (.link target)

theorem walk_last (hname : IsName name) (hend : IsEnd t aim (here ++ [name])) :
    walk t aim links here [name] = .ok (here ++ [name]) := by
  obtain ⟨onLink, hwalk⟩ := walk_eq_walkWith t aim links
  rw [hwalk, walkWith_name hname (by simp)]
  cases hnode : t.node? (here ++ [name]) with
  | none => rfl
  | some node =>
    cases node with
    | directory => exact absurd hnode hend.notDirectory
    | file bytes => rfl
    | link target =>
      have hentry := hend.notFollowed.resolve_right (fun hunlinked => hunlinked target hnode)
      exact if_pos ⟨rfl, hentry⟩

/-! ### Walks with an answer -/

/-- How a walk with an answer goes, part by part, to where it ends. -/
inductive Walks (t : FileTree) (aim : Aim) : Nat → Place → List String → Place → Prop
  | nil {links : Nat} {here : Place} : Walks t aim links here [] here
  | idle {links : Nat} {here q : Place} {name : String} {rest : List String} : isIdle name = true →
      Walks t aim links here rest q → Walks t aim links here (name :: rest) q
  | up {links : Nat} {here q : Place} {rest : List String} :
      Walks t aim links here.dropLast rest q → Walks t aim links here (".." :: rest) q
  | last {links : Nat} {here : Place} {name : String} : IsName name → IsEnd t aim (here ++ [name]) →
      Walks t aim links here [name] (here ++ [name])
  | down {links : Nat} {here q : Place} {name : String} {rest : List String} : IsName name →
      ¬(aim = .writing ∧ rest = [""]) → t.node? (here ++ [name]) = some .directory →
      Walks t aim links (here ++ [name]) rest q → Walks t aim links here (name :: rest) q
  | link {links : Nat} {here q : Place} {name target : String} {rest : List String} : IsName name →
      ¬(aim = .writing ∧ rest = [""]) → t.node? (here ++ [name]) = some (.link target) →
      ¬(rest = [] ∧ aim = .entry) →
      Walks t aim links (if (Path.ofString target).isAbsolute then [] else here)
        (targetParts target ++ rest) q → Walks t aim (links + 1) here (name :: rest) q

theorem Walks.walk (h : Walks t aim links here parts q) : t.walk aim links here parts = .ok q := by
  induction h with
  | nil => exact walk_nil
  | idle hidle _ ih => rwa [walk_idle hidle]
  | up _ ih => rwa [walk_up]
  | last hname hend => exact walk_last hname hend
  | down hname haim hnode _ ih => rwa [walk_down hname haim hnode]
  | link hname haim hnode hends _ ih => rwa [walk_link hname haim hnode hends]

/-- One stretch of a walk between links: what goes on behind a link is given. -/
theorem Walks.of_walkWith {onLink : Place → List String → Except SystemError Place}
    (honLink : ∀ base parts, onLink base parts = .ok q →
      ∃ fewer, links = fewer + 1 ∧ Walks t aim fewer base parts q)
    (h : walkWith onLink t aim here parts = .ok q) : Walks t aim links here parts q := by
  induction parts generalizing here with
  | nil =>
    obtain rfl := Except.ok.inj h
    exact .nil
  | cons name rest ih =>
    rcases walkWith_cases h with hidle | rfl | ⟨hname, haim⟩
    · rw [walkWith_idle hidle] at h
      exact .idle hidle (ih h)
    · rw [walkWith_up] at h
      exact .up (ih h)
    · rw [walkWith_name hname haim] at h
      -- A walk that ends with this name has no parts left.
      have hlast : ∀ cause : SystemError, IsEnd t aim (here ++ [name]) →
          (if rest.isEmpty then .ok (here ++ [name]) else .error cause) = Except.ok q →
            Walks t aim links here (name :: rest) q := by
        intro cause hend hanswer
        split at hanswer
        · next hnil =>
          obtain rfl := Except.ok.inj hanswer
          rw [List.isEmpty_iff.1 hnil]
          exact .last hname hend
        · cases hanswer
      cases hnode : t.node? (here ++ [name]) with
      | none =>
        rw [hnode] at h
        exact hlast _ ⟨by simp [hnode], .inr (by simp [hnode])⟩ h
      | some node =>
        rw [hnode] at h
        cases node with
        | directory => exact .down hname haim hnode (ih h)
        | file bytes => exact hlast _ ⟨by simp [hnode], .inr (by simp [hnode])⟩ h
        | link target =>
          dsimp only at h
          split at h
          · next hends =>
            obtain rfl := Except.ok.inj h
            rw [List.isEmpty_iff.1 hends.1]
            exact .last hname ⟨by simp [hnode], .inl hends.2⟩
          · next hends =>
            obtain ⟨fewer, rfl, hbehind⟩ := honLink _ _ h
            exact .link hname haim hnode (by rwa [← List.isEmpty_iff]) hbehind

/-- **A walk has an answer exactly if it goes there part by part.** -/
theorem walk_eq_ok : t.walk aim links here parts = .ok q ↔ Walks t aim links here parts q := by
  refine ⟨fun h => ?_, Walks.walk⟩
  induction links generalizing here parts with
  | zero => exact .of_walkWith (fun base parts hlink => by cases hlink) h
  | succ links ih => exact .of_walkWith (fun base parts hlink => ⟨links, rfl, ih hlink⟩) h

/-- **A walk follows directories and links to its last part.** What is asked of the last part
does not matter before it is reached, and for a walk to what is there not even then. -/
theorem walk_append (h : Leads t n here parts d) (hlinks : n ≤ links)
    (hrest : aim = .target ∨ rest ≠ [] ∧ rest ≠ [""]) :
    walk t aim links here (parts ++ rest) = walk t aim (links - n) d rest := by
  have hwriting : ∀ more : List String, ¬(aim = .writing ∧ more ++ rest = [""]) := by
    rintro more ⟨rfl, hmore⟩
    obtain ⟨hne, hslash⟩ := hrest.resolve_left (by decide)
    rcases List.append_eq_singleton_iff.1 hmore with ⟨-, heq⟩ | ⟨-, heq⟩
    · exact hslash heq
    · exact hne heq
  have hentry : ∀ more : List String, ¬(more ++ rest = [] ∧ aim = .entry) := by
    rintro more ⟨hmore, rfl⟩
    obtain ⟨hne, -⟩ := hrest.resolve_left (by decide)
    exact hne (List.append_eq_nil_iff.1 hmore).2
  induction h generalizing links with
  | nil => rfl
  | idle hidle _ ih => rw [← ih hlinks, List.cons_append, walk_idle hidle]
  | up _ ih => rw [← ih hlinks, List.cons_append, walk_up]
  | down hname hnode _ ih => rw [← ih hlinks, List.cons_append, walk_down hname (hwriting _) hnode]
  | link hname hnode _ ih =>
    obtain ⟨fewer, rfl⟩ : ∃ fewer, links = fewer + 1 := ⟨links - 1, by omega⟩
    rw [List.cons_append, walk_link hname (hwriting _) hnode (hentry _), ← List.append_assoc,
      ih (by omega), Nat.add_sub_add_right]

/-- **A walk with an answer has followed directories and links** to its last part, or to a
directory. -/
theorem exists_leads_of_walk
    (hrest : rest ≠ [] ∨ aim = .target ∧ t.node? q = some .directory)
    (h : walk t aim links here (parts ++ rest) = .ok q) :
    ∃ n d, n ≤ links ∧ Leads t n here parts d ∧ walk t aim (links - n) d rest = .ok q := by
  simp only [walk_eq_ok] at h ⊢
  generalize hall : parts ++ rest = all at h
  -- By the walk: it has no part left, or takes its first one.
  induction h generalizing parts with
  | nil =>
    obtain ⟨rfl, rfl⟩ := List.append_eq_nil_iff.1 hall
    exact ⟨0, _, Nat.zero_le _, .nil, .nil⟩
  | idle hidle h ih =>
    rcases List.append_eq_cons_iff.1 hall with ⟨rfl, rfl⟩ | ⟨parts, rfl, rfl⟩
    · exact ⟨0, _, Nat.zero_le _, .nil, .idle hidle h⟩
    · obtain ⟨n, d, hn, hleads, hlast⟩ := ih hrest rfl
      exact ⟨n, d, hn, .idle hidle hleads, hlast⟩
  | up h ih =>
    rcases List.append_eq_cons_iff.1 hall with ⟨rfl, rfl⟩ | ⟨parts, rfl, rfl⟩
    · exact ⟨0, _, Nat.zero_le _, .nil, .up h⟩
    · obtain ⟨n, d, hn, hleads, hlast⟩ := ih hrest rfl
      exact ⟨n, d, hn, .up hleads, hlast⟩
  | last hname hend =>
    rcases List.append_eq_cons_iff.1 hall with ⟨rfl, rfl⟩ | ⟨parts, rfl, hnil⟩
    · exact ⟨0, _, Nat.zero_le _, .nil, .last hname hend⟩
    · -- The walk has no part left, so it should have led to a directory.
      have hparts := (List.append_eq_nil_iff.1 hnil.symm).2
      exact absurd (hrest.resolve_left (fun hne => hne hparts)).2 hend.notDirectory
  | down hname haim hnode h ih =>
    rcases List.append_eq_cons_iff.1 hall with ⟨rfl, rfl⟩ | ⟨parts, rfl, rfl⟩
    · exact ⟨0, _, Nat.zero_le _, .nil, .down hname haim hnode h⟩
    · obtain ⟨n, d, hn, hleads, hlast⟩ := ih hrest rfl
      exact ⟨n, d, hn, .down hname hnode hleads, hlast⟩
  | link hname haim hnode hends h ih =>
    rcases List.append_eq_cons_iff.1 hall with ⟨rfl, rfl⟩ | ⟨parts, rfl, rfl⟩
    · exact ⟨0, _, Nat.zero_le _, .nil, .link hname haim hnode hends h⟩
    · obtain ⟨n, d, hn, hleads, hlast⟩ := ih hrest (List.append_assoc ..)
      rw [← Nat.add_sub_add_right _ 1] at hlast
      exact ⟨n + 1, d, Nat.succ_le_succ hn, .link hname hnode hleads, hlast⟩

/-! ## The last part -/

theorem walk_directory (h : Leads t n here parts d) (hlinks : n ≤ links) :
    walk t .target links here parts = .ok d := by
  have hwalk := walk_append h hlinks (.inl rfl : Aim.target = .target ∨ [] ≠ [] ∧ [] ≠ [""])
  rw [List.append_nil, walk_nil] at hwalk
  exact hwalk

theorem walk_entry (hname : IsName name) :
    walk t .entry links here [name] = .ok (here ++ [name]) := by
  by_cases hnode : t.node? (here ++ [name]) = some .directory
  · rw [walk_down hname (by simp) hnode, walk_nil]
  · exact walk_last hname ⟨hnode, .inl rfl⟩

/-- What is no link is found under its name, whatever it is wanted for. -/
theorem walk_unlinked (hname : IsName name)
    (hunlinked : ∀ target, t.node? (here ++ [name]) ≠ some (.link target)) :
    walk t aim links here [name] = .ok (here ++ [name]) := by
  by_cases hnode : t.node? (here ++ [name]) = some .directory
  · rw [walk_down hname (by simp) hnode, walk_nil]
  · exact walk_last hname ⟨hnode, .inr hunlinked⟩

/-- Parts that lead to a directory lead to an entry as well: to the directory itself, or to a
link. -/
theorem Leads.exists_entry (h : Leads t n here parts d) (hlinks : n ≤ links) :
    ∃ q, walk t .entry links here parts = .ok q ∧
    (q = d ∨ ∃ target, t.node? q = some (.link target)) := by
  induction h generalizing links with
  | nil => exact ⟨_, walk_nil, .inl rfl⟩
  | idle hidle _ ih =>
    rw [walk_idle hidle]
    exact ih hlinks
  | up _ ih =>
    rw [walk_up]
    exact ih hlinks
  | down hname hnode _ ih =>
    rw [walk_down hname (by simp) hnode]
    exact ih hlinks
  | @link n here d name target rest hname hnode _ ih =>
    obtain ⟨fewer, rfl⟩ : ∃ fewer, links = fewer + 1 := ⟨links - 1, by omega⟩
    by_cases hends : rest = []
    · rw [hends]
      exact ⟨_, walk_entry hname, .inr ⟨_, hnode⟩⟩
    · rw [walk_link hname (by simp) hnode (fun h => hends h.1)]
      exact ih (by omega)

/-- A name that is found is one that a directory can hold. -/
theorem isName_of_walk (hidle : isIdle name = false) (hup : name ≠ "..")
    (h : walk t aim links here [name] = .ok q) : IsName name := by
  cases walk_eq_ok.1 h with
  | idle hidle' _ =>
    rw [hidle] at hidle'
    cases hidle'
  | up _ => exact absurd rfl hup
  | last hname _ => exact hname
  | down hname _ _ _ => exact hname
  | link hname _ _ _ _ => exact hname

/-! ## Paths -/

/-- The place that a path is followed from. -/
def startOf (cwd : Place) (p : Path) : Place := if p.isAbsolute then [] else cwd

/-- Whether a path can be handed to the file system. -/
structure Passable (p : Path) : Prop where
  noNul : p.hasNul = false
  short : p.toString.utf8ByteSize ≤ longestPath

theorem locate_eq_ok {cwd : Place} {p : Path} :
    t.locate cwd aim p = .ok q ↔ Passable p ∧ t.walk aim 40 (startOf cwd p) p.parts = .ok q := by
  unfold locate startOf
  by_cases hnul : p.hasNul = true
  · rw [if_pos hnul]
    constructor
    · intro h
      cases h
    · rintro ⟨⟨hno, -⟩, -⟩
      rw [hno] at hnul
      cases hnul
  by_cases hlong : longestPath < p.toString.utf8ByteSize
  · rw [if_neg hnul, if_pos hlong]
    constructor
    · intro h
      cases h
    · rintro ⟨⟨-, hshort⟩, -⟩
      exact absurd hlong (Nat.not_lt_of_le hshort)
  rw [if_neg hnul, if_neg hlong]
  have hpass : Passable p := ⟨Bool.eq_false_iff.2 hnul, Nat.le_of_not_lt hlong⟩
  cases t.walk aim 40 (if p.isAbsolute then [] else cwd) p.parts with
  | ok place =>
    constructor
    · intro h
      exact ⟨hpass, congrArg Except.ok (Except.ok.inj h)⟩
    · rintro ⟨-, h⟩
      exact congrArg Except.ok (Except.ok.inj h)
  | error cause =>
    constructor
    · intro h
      cases h
    · rintro ⟨-, h⟩
      cases h

theorem locate_of_not_passable {cwd : Place} {p : Path} (aim : Aim) (hpass : ¬Passable p) :
    t.locate cwd aim p = .error .embeddedNul ∨
      t.locate cwd aim p = .error (.system .nameTooLong p.toString) := by
  unfold locate
  by_cases hnul : p.hasNul = true
  · rw [if_pos hnul]
    exact .inl rfl
  · rw [if_neg hnul, if_pos]
    · exact .inr rfl
    · exact Nat.lt_of_not_le fun hshort => hpass ⟨Bool.eq_false_iff.2 hnul, hshort⟩

theorem Grounded.startOf {cwd : Place} (hcwd : Grounded t cwd) (p : Path) :
    Grounded t (startOf cwd p) := by
  unfold FileTree.startOf
  split
  · exact .root
  · exact hcwd

theorem status_eq_ok {cwd : Place} {p : Path} {node : Node} :
    t.status cwd p = .ok node ↔ ∃ q, t.locate cwd .target p = .ok q ∧ t.node? q = some node := by
  unfold status
  cases t.locate cwd .target p with
  | error e =>
    constructor
    · intro h
      cases h
    · rintro ⟨q, h, -⟩
      cases h
  | ok q =>
    constructor
    · intro h
      refine ⟨q, rfl, ?_⟩
      dsimp only at h
      cases hnode : t.node? q with
      | none =>
        rw [hnode] at h
        cases h
      | some found =>
        rw [hnode] at h
        exact congrArg some (Except.ok.inj h)
    · rintro ⟨q', h, hnode⟩
      cases h
      dsimp only
      rw [hnode]

theorem test_eq_true {cwd : Place} {p : Path} {passes : Node → Bool} :
    t.test cwd p passes = .ok true ↔ ∃ node, t.status cwd p = .ok node ∧ passes node = true := by
  unfold test
  cases t.status cwd p with
  | ok node =>
    constructor
    · exact fun h => ⟨node, rfl, Except.ok.inj h⟩
    · rintro ⟨node', h, hpasses⟩
      cases h
      exact congrArg Except.ok hpasses
  | error e =>
    constructor
    · intro h
      split at h
      · next heq => cases heq
      · cases h
      · split at h
        · cases h
        · cases h
      · cases h
    · rintro ⟨node, h, -⟩
      cases h

/-- Where the last part of a path is a name, the parts before it lead to a directory. -/
theorem locate_child {cwd : Place} {p : Path} (hidle : isIdle name = false) :
    t.locate cwd aim (p.child name) = .ok q ↔ Passable (p.child name) ∧
      ∃ n d, n ≤ 40 ∧ Leads t n (startOf cwd p) p.parts d ∧
      t.walk aim (40 - n) d [name] = .ok q := by
  have hrest : [name] ≠ [] ∧ [name] ≠ [""] := by
    refine ⟨List.cons_ne_nil _ _, ?_⟩
    intro heq
    cases heq
    cases hidle
  rw [locate_eq_ok]
  refine and_congr_right fun _ => ?_
  show t.walk aim 40 (startOf cwd p) (p.parts ++ [name]) = .ok q ↔ _
  constructor
  · exact exists_leads_of_walk (.inl hrest.1)
  · rintro ⟨n, d, hn, hleads, hlast⟩
    rw [walk_append hleads hn (.inr hrest)]
    exact hlast

/-- The entry that a path names stands in the directory that the parts before it lead to. -/
theorem locate_entry_child {cwd : Place} {p : Path} (hidle : isIdle name = false)
    (hup : name ≠ "..") :
    t.locate cwd .entry (p.child name) = .ok q ↔ Passable (p.child name) ∧ IsName name ∧
      ∃ n d, n ≤ 40 ∧ Leads t n (startOf cwd p) p.parts d ∧ q = d ++ [name] := by
  rw [locate_child hidle]
  refine and_congr_right fun _ => ?_
  constructor
  · rintro ⟨n, d, hn, hleads, hlast⟩
    have hname := isName_of_walk hidle hup hlast
    rw [walk_entry hname] at hlast
    exact ⟨hname, n, d, hn, hleads, (Except.ok.inj hlast).symm⟩
  · rintro ⟨hname, n, d, hn, hleads, rfl⟩
    exact ⟨n, d, hn, hleads, walk_entry hname⟩

/-- A path to an entry that is no directory ends in a name. -/
theorem exists_child_of_locate {cwd : Place} {p : Path} (hcwd : Grounded t cwd)
    (hlocate : t.locate cwd .entry p = .ok q) (hother : t.node? q ≠ some .directory) :
    ∃ above name, p = Path.child above name ∧ isIdle name = false ∧ name ≠ ".." := by
  obtain ⟨-, hwalk⟩ := locate_eq_ok.1 hlocate
  have hstart := hcwd.startOf p
  rcases List.eq_nil_or_concat p.parts with hparts | ⟨above, last, hparts⟩
  · rw [hparts, walk_nil] at hwalk
    rw [← Except.ok.inj hwalk] at hother
    exact absurd hstart.node hother
  · rw [hparts, List.concat_eq_append] at hwalk
    obtain ⟨n, d, hn, hleads, hlast⟩ := exists_leads_of_walk (.inl (List.cons_ne_nil _ _)) hwalk
    have hd := hleads.grounded hstart
    refine ⟨⟨p.anchor, above⟩, last, ?_, Bool.eq_false_iff.2 fun hidle => ?_, ?_⟩
    · rw [Path.child, ← List.concat_eq_append, ← hparts]
    · rw [walk_idle hidle, walk_nil] at hlast
      rw [← Except.ok.inj hlast] at hother
      exact hother hd.node
    · rintro rfl
      rw [walk_up, walk_nil] at hlast
      rw [← Except.ok.inj hlast] at hother
      exact hother hd.dropLast.node

/-- **A directory is at a path exactly if the path leads to it.** -/
theorem isDirectory_iff {cwd : Place} {p : Path} (hcwd : Grounded t cwd) :
    t.isDirectory? cwd p = .ok true ↔
      Passable p ∧ ∃ n d, n ≤ 40 ∧ Leads t n (startOf cwd p) p.parts d := by
  rw [isDirectory?, test_eq_true]
  constructor
  · rintro ⟨node, hstatus, hnode⟩
    obtain ⟨q, hlocate, hq⟩ := status_eq_ok.1 hstatus
    obtain ⟨hpass, hwalk⟩ := locate_eq_ok.1 hlocate
    rw [beq_iff_eq] at hnode
    subst hnode
    rw [← List.append_nil p.parts] at hwalk
    obtain ⟨n, d, hn, hleads, -⟩ := exists_leads_of_walk (.inr ⟨rfl, hq⟩) hwalk
    exact ⟨hpass, n, d, hn, hleads⟩
  · rintro ⟨hpass, n, d, hn, hleads⟩
    exact ⟨.directory, status_eq_ok.2 ⟨d, locate_eq_ok.2 ⟨hpass, walk_directory hleads hn⟩,
      (hleads.grounded (hcwd.startOf p)).node⟩, rfl⟩

/-! ## What stands in the way of a look -/

/-- A walk to what is there is stopped by something that is missing, or by too long a name. -/
theorem absent_or_long_of_walkWith {cause : SystemError}
    {onLink : Place → List String → Except SystemError Place}
    (honLink : ∀ {here parts}, onLink here parts = .error cause →
      cause.meansAbsent = true ∨ cause = .nameTooLong)
    (h : walkWith onLink t .target here parts = .error cause) :
    cause.meansAbsent = true ∨ cause = .nameTooLong := by
  induction parts generalizing here with
  | nil => cases h
  | cons name rest ih =>
    rw [walkWith] at h
    by_cases hidle : isIdle name = true
    · rw [if_pos hidle] at h
      exact ih h
    rw [if_neg hidle] at h
    by_cases hup : name = ".."
    · rw [if_pos hup] at h
      exact ih h
    rw [if_neg hup, if_neg (by rintro ⟨⟨⟩, -⟩)] at h
    by_cases hlong : isLongName name = true
    · rw [if_pos hlong] at h
      cases h
      exact .inr rfl
    rw [if_neg hlong] at h
    -- A name is found, or there is nothing to go on from.
    cases hnode : t.node? (here ++ [name]) with
    | none =>
      rw [hnode] at h
      by_cases hlast : rest.isEmpty = true
      · rw [if_pos hlast] at h
        cases h
      · rw [if_neg hlast] at h
        cases h
        exact .inl rfl
    | some node =>
      rw [hnode] at h
      cases node with
      | directory => exact ih h
      | file bytes =>
        dsimp only at h
        by_cases hlast : rest.isEmpty = true
        · rw [if_pos hlast] at h
          cases h
        · rw [if_neg hlast] at h
          cases h
          exact .inl rfl
      | link target =>
        dsimp only at h
        rw [if_neg (by rintro ⟨-, ⟨⟩⟩)] at h
        exact honLink h

theorem absent_or_long_of_walk {cause : SystemError}
    (h : t.walk .target links here parts = .error cause) :
    cause.meansAbsent = true ∨ cause = .nameTooLong := by
  induction links generalizing here parts with
  | zero =>
    refine absent_or_long_of_walkWith (fun hlink => ?_) h
    cases hlink
    exact .inl rfl
  | succ links ih => exact absent_or_long_of_walkWith ih h

theorem locate_target_eq_error {cwd : Place} {p : Path} {e : Failure}
    (h : t.locate cwd .target p = .error e) :
    e = .embeddedNul ∨ ∃ cause, e = .system cause p.toString ∧
      (cause.meansAbsent = true ∨ cause = .nameTooLong) := by
  -- A path may be refused as a whole, before it is walked.
  unfold locate at h
  by_cases hnul : p.hasNul = true
  · rw [if_pos hnul] at h
    cases h
    exact .inl rfl
  rw [if_neg hnul] at h
  by_cases hlong : longestPath < p.toString.utf8ByteSize
  · rw [if_pos hlong] at h
    cases h
    exact .inr ⟨_, rfl, .inr rfl⟩
  rw [if_neg hlong] at h
  cases hwalk : t.walk .target 40 (if p.isAbsolute then [] else cwd) p.parts with
  | ok place =>
    rw [hwalk] at h
    cases h
  | error cause =>
    rw [hwalk] at h
    cases h
    exact .inr ⟨_, rfl, absent_or_long_of_walk hwalk⟩

/-- **Only a path that is too long cannot be looked up.** -/
theorem exists?_eq_error {cwd : Place} {p : Path} {e : Failure} :
    t.exists? cwd p = .error e ↔
      e = .system .nameTooLong p.toString ∧ t.locate cwd .target p = .error e := by
  unfold exists? test status
  constructor
  · intro h
    cases hlocate : t.locate cwd .target p with
    | ok place =>
      rw [hlocate] at h
      dsimp only at h
      cases hnode : t.node? place with
      | none | some node =>
        rw [hnode] at h
        cases h
    | error fault =>
      rw [hlocate] at h
      rcases locate_target_eq_error hlocate with rfl | ⟨cause, rfl, habsent | rfl⟩
      · cases h
      · dsimp only at h
        rw [if_pos habsent] at h
        cases h
      · cases h
        exact ⟨rfl, rfl⟩
  · rintro ⟨rfl, hlocate⟩
    rw [hlocate]
    rfl

end SourceDrift.FileTree
