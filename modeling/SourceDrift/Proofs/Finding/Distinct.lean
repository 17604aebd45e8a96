/-
Leaving out duplicates cuts a list of findings in two.

Two passes make the two parts, one that remembers the forms it has met and one that remembers
the first finding of each form. Neither knows of the other, so that they fit together has to be
shown of both at once: `Parted` is what holds of the findings met so far, `Parted.keep` and
`Parted.drop` are the two ways in which one more finding goes on with it, and both passes take
the same of the two. What each has remembered is then no more than the kept findings, read
backwards.

A finding may occur twice in a list, so the parts are told by positions and not by what stands
there.
-/
import Mathlib.Data.List.Basic
import SourceDrift.Finding.Duplicates

set_option autoImplicit false

namespace SourceDrift.Finding

/-! ## The first of each form -/

/-- The forms of what is left are the forms that are not among those seen, each at its first
place. -/
theorem map_canonical_distinctFrom (seen : List String) (fs : List Finding) :
    (distinctFrom seen fs).map canonical =
      ((fs.map canonical).filter fun form => !seen.contains form).eraseDups := by
  induction fs generalizing seen with
  | nil => rfl
  | cons f rest ih =>
    rw [distinctFrom, List.map_cons]
    by_cases hseen : seen.contains f.canonical = true
    · rw [if_pos hseen, ih, List.filter_cons_of_neg (by rw [hseen]; decide)]
    · rw [if_neg hseen, List.map_cons, ih,
        List.filter_cons_of_pos (by rw [Bool.not_eq_true] at hseen; rw [hseen]; rfl),
        List.eraseDups_cons, List.filter_filter]
      -- What has been seen after `f` is its form and what was seen before.
      have hforms : ∀ form, (!(f.canonical :: seen).contains form) =
          (!form == f.canonical && !seen.contains form) := by
        intro form
        rw [List.contains_cons, Bool.not_or]
      simp only [hforms]

/-- **The forms of the distinct findings** are the forms of all, each at its first place. -/
theorem map_canonical_distinct (fs : List Finding) :
    (distinct fs).map canonical = (fs.map canonical).eraseDups := by
  rw [distinct, map_canonical_distinctFrom]
  exact congrArg List.eraseDups (List.filter_eq_self.2 fun _ _ => rfl)

theorem distinctFrom_sublist (seen : List String) (fs : List Finding) :
    (distinctFrom seen fs).Sublist fs := by
  induction fs generalizing seen with
  | nil => exact .slnil
  | cons f rest ih =>
    rw [distinctFrom]
    split
    · exact (ih seen).cons f
    · exact (ih _).cons_cons f

/-- **Distinct findings are some of the findings**, in their order. -/
theorem distinct_sublist (fs : List Finding) : (distinct fs).Sublist fs :=
  distinctFrom_sublist [] fs

/-- Where no form repeats, none is left out. -/
theorem distinctFrom_eq_self {seen : List String} {fs : List Finding}
    (hfresh : ∀ f ∈ fs, f.canonical ∉ seen) (hnodup : (fs.map canonical).Nodup) :
    distinctFrom seen fs = fs := by
  induction fs generalizing seen with
  | nil => rfl
  | cons f rest ih =>
    rw [List.forall_mem_cons] at hfresh
    rw [List.map_cons, List.nodup_cons] at hnodup
    have hseen : ¬seen.contains f.canonical = true := by
      rw [List.contains_iff_mem]
      exact hfresh.1
    have hrest : ∀ g ∈ rest, g.canonical ∉ f.canonical :: seen := by
      intro g hg hmem
      rcases List.mem_cons.1 hmem with heq | hmem
      · exact hnodup.1 (heq ▸ List.mem_map_of_mem hg)
      · exact hfresh.2 g hg hmem
    rw [distinctFrom, if_neg hseen, ih hrest hnodup.2]

/-! ## Two parts of a list -/

/-- A list of findings in two parts. `places` are the positions of those that are kept, in
order. `pairs` has the positions of the others, in order, each with the position of the finding
that is kept in its place. -/
structure Parted (fs : List Finding) (places : List Nat) (pairs : List (Nat × Nat))
    (kept : List Finding) (dropped : List (Finding × Finding)) : Prop where
  /-- Every position is in one of the parts, and only once. -/
  once : (places ++ pairs.map (·.1)).Perm (List.range fs.length)
  keptInOrder : places.Pairwise (· < ·)
  droppedInOrder : (pairs.map (·.1)).Pairwise (· < ·)
  keptStand : kept.map some = places.map fun i => fs[i]?
  droppedStand : dropped.map (fun d => (some d.1, some d.2)) = pairs.map fun p =>
    (fs[p.1]?, fs[p.2]?)
  earlier : ∀ p ∈ pairs, p.2 ∈ places ∧ p.2 < p.1
  sameForm : ∀ d ∈ dropped, d.1.canonical = d.2.canonical
  otherForms : (kept.map canonical).Nodup

namespace Parted

variable {fs kept : List Finding} {places : List Nat} {pairs : List (Nat × Nat)}
  {dropped : List (Finding × Finding)}

theorem nil : Parted [] [] [] [] [] where
  once := .nil
  keptInOrder := .nil
  droppedInOrder := .nil
  keptStand := rfl
  droppedStand := rfl
  earlier _ hp := absurd hp List.not_mem_nil
  sameForm _ hd := absurd hd List.not_mem_nil
  otherForms := .nil

theorem lt_length (h : Parted fs places pairs kept dropped) :
    (∀ i ∈ places, i < fs.length) ∧ ∀ p ∈ pairs, p.1 < fs.length ∧ p.2 < fs.length := by
  have hall : ∀ i ∈ places ++ pairs.map (·.1), i < fs.length := fun i hi =>
    List.mem_range.1 (h.once.subset hi)
  have hplaces : ∀ i ∈ places, i < fs.length := fun i hi => hall i (List.mem_append_left _ hi)
  refine ⟨hplaces, fun p hp => ⟨?_, hplaces _ (h.earlier p hp).1⟩⟩
  exact hall _ (List.mem_append_right _ (List.mem_map_of_mem hp))

/-- What stands at the positions stays when the list goes on. -/
theorem getElem_append (h : Parted fs places pairs kept dropped) (f : Finding) :
    places.map (fun i => (fs ++ [f])[i]?) = places.map (fun i => fs[i]?) ∧
      pairs.map (fun p => ((fs ++ [f])[p.1]?, (fs ++ [f])[p.2]?)) =
        pairs.map fun p => (fs[p.1]?, fs[p.2]?) := by
  obtain ⟨hplaces, hpairs⟩ := h.lt_length
  constructor
  · refine List.map_congr_left (fun i hi => ?_)
    exact List.getElem?_append_left (hplaces i hi)
  · refine List.map_congr_left (fun p hp => ?_)
    rw [List.getElem?_append_left (hpairs p hp).1, List.getElem?_append_left (hpairs p hp).2]

/-- **A finding of a new form is kept.** -/
theorem keep (h : Parted fs places pairs kept dropped) {f : Finding}
    (hf : f.canonical ∉ kept.map canonical) :
    Parted (fs ++ [f]) (places ++ [fs.length]) pairs (kept ++ [f]) dropped := by
  obtain ⟨hplaces, -⟩ := h.lt_length
  obtain ⟨hkept, hdropped⟩ := h.getElem_append f
  refine ⟨?_, ?_, h.droppedInOrder, ?_, ?_, fun p hp => ?_, h.sameForm, ?_⟩
  · rw [List.length_append, List.length_singleton, List.range_succ, List.append_assoc]
    refine (List.Perm.append_left places List.perm_append_comm).trans ?_
    rw [← List.append_assoc]
    exact h.once.append_right [fs.length]
  · rw [List.pairwise_append]
    refine ⟨h.keptInOrder, List.pairwise_singleton _ _, fun i hi j hj => ?_⟩
    rw [List.mem_singleton.1 hj]
    exact hplaces i hi
  · rw [List.map_append, List.map_append, h.keptStand, hkept, List.map_singleton,
      List.map_singleton,
      List.getElem?_concat_length]
  · rw [h.droppedStand, hdropped]
  · exact ⟨List.mem_append_left _ (h.earlier p hp).1, (h.earlier p hp).2⟩
  · rw [List.map_append, List.map_singleton]
    refine List.nodup_append.2 ⟨h.otherForms, List.pairwise_singleton _ _, ?_⟩
    intro form hform other hother heq
    rw [List.mem_singleton.1 hother] at heq
    exact hf (heq ▸ hform)

/-- **A finding of a form that has been kept is dropped**, and stands beside what was kept. -/
theorem drop (h : Parted fs places pairs kept dropped) {f first : Finding} (hfirst : first ∈ kept)
    (hform : f.canonical = first.canonical) :
    ∃ i, Parted (fs ++ [f]) places (pairs ++ [(fs.length, i)]) kept (dropped ++ [(f, first)]) := by
  obtain ⟨hplaces, hpairs⟩ := h.lt_length
  obtain ⟨hkept, hdropped⟩ := h.getElem_append f
  obtain ⟨i, hi, hget⟩ : ∃ i ∈ places, fs[i]? = some first := by
    have hmem : some first ∈ places.map fun i => fs[i]? := by
      rw [← h.keptStand]
      exact List.mem_map_of_mem hfirst
    exact List.mem_map.1 hmem
  -- The new finding is the last of all, and stands beside the kept one of its form.
  have hlt := hplaces i hi
  refine ⟨i, ?_, h.keptInOrder, ?_, ?_, ?_, fun p hp => ?_, fun d hd => ?_, h.otherForms⟩
  · rw [List.map_append, List.map_singleton, List.length_append, List.length_singleton,
      List.range_succ, ← List.append_assoc]
    exact h.once.append_right [fs.length]
  · rw [List.map_append, List.map_singleton, List.pairwise_append]
    refine ⟨h.droppedInOrder, List.pairwise_singleton _ _, fun j hj k hk => ?_⟩
    obtain ⟨p, hp, rfl⟩ := List.mem_map.1 hj
    rw [List.mem_singleton.1 hk]
    exact (hpairs p hp).1
  · rw [h.keptStand, hkept]
  · rw [List.map_append, List.map_append, h.droppedStand, hdropped, List.map_singleton,
      List.map_singleton, List.getElem?_concat_length, List.getElem?_append_left hlt, hget]
  · rcases List.mem_append.1 hp with hp | hp
    · exact h.earlier p hp
    · rw [List.mem_singleton.1 hp]
      exact ⟨hi, hlt⟩
  · rcases List.mem_append.1 hd with hd | hd
    · exact h.sameForm d hd
    · rw [List.mem_singleton.1 hd]
      exact hform

end Parted

/-! ## The two passes -/

/-- The kept findings with their forms, the latest first: what the second pass remembers. -/
def remembered (kept : List Finding) : List (String × Finding) :=
  (kept.map fun f => (f.canonical, f)).reverse

theorem remembered_append (kept : List Finding) (f : Finding) :
    remembered (kept ++ [f]) = (f.canonical, f) :: remembered kept := by
  rw [remembered, List.map_append, List.reverse_append]
  rfl

theorem mem_of_firstOf {form : String} {kept : List Finding} {first : Finding}
    (h : firstOf? form (remembered kept) = some first) : first ∈ kept ∧ first.canonical = form := by
  obtain ⟨entry, hfind, rfl⟩ := Option.map_eq_some_iff.1 h
  have hmem := List.mem_of_find?_eq_some hfind
  rw [remembered, List.mem_reverse] at hmem
  obtain ⟨f, hf, rfl⟩ := List.mem_map.1 hmem
  have hform := List.find?_some hfind
  exact ⟨hf, beq_iff_eq.1 hform⟩

theorem firstOf_eq_none {form : String} {kept : List Finding}
    (h : firstOf? form (remembered kept) = none) : form ∉ kept.map canonical := by
  intro hmem
  obtain ⟨f, hf, rfl⟩ := List.mem_map.1 hmem
  rw [firstOf?, Option.map_eq_none_iff, List.find?_eq_none] at h
  have hentry : (f.canonical, f) ∈ remembered kept := by
    rw [remembered, List.mem_reverse]
    exact List.mem_map_of_mem hf
  exact h _ hentry (beq_self_eq_true _)

/-- **Both passes go on with the parts that they have made.** The induction is on the findings
that are left; the parts of those before them are what it carries. -/
theorem parted_from (rest : List Finding) : ∀ {fs kept : List Finding} {places : List Nat}
    {pairs : List (Nat × Nat)} {dropped : List (Finding × Finding)},
    Parted fs places pairs kept dropped →
    ∃ places' pairs', Parted (fs ++ rest) places' pairs'
      (kept ++ distinctFrom (kept.map canonical).reverse rest)
      (dropped ++ duplicatesFrom (remembered kept) rest) := by
  induction rest with
  | nil =>
    intro fs kept places pairs dropped h
    simp only [distinctFrom, duplicatesFrom, List.append_nil]
    exact ⟨places, pairs, h⟩
  | cons f rest ih =>
    intro fs kept places pairs dropped h
    rw [distinctFrom, duplicatesFrom, List.append_cons fs f rest]
    cases hfound : firstOf? f.canonical (remembered kept) with
    | some first =>
      obtain ⟨hfirst, hform⟩ := mem_of_firstOf hfound
      have hseen : (kept.map canonical).reverse.contains f.canonical = true := by
        rw [List.contains_iff_mem, List.mem_reverse, ← hform]
        exact List.mem_map_of_mem hfirst
      obtain ⟨i, hnext⟩ := h.drop hfirst hform.symm
      rw [if_pos hseen]
      dsimp only
      rw [List.append_cons dropped]
      exact ih hnext
    | none =>
      have hnew := firstOf_eq_none hfound
      have hseen : ¬(kept.map canonical).reverse.contains f.canonical = true := by
        rw [List.contains_iff_mem, List.mem_reverse]
        exact hnew
      have hforms : f.canonical :: (kept.map canonical).reverse =
          ((kept ++ [f]).map canonical).reverse := by
        rw [List.map_append, List.reverse_append]
        rfl
      rw [if_neg hseen]
      dsimp only
      rw [List.append_cons kept, hforms, ← remembered_append]
      exact ih (h.keep hnew)

/-- **The two passes part a list**: what one keeps and what the other drops. -/
theorem parted (fs : List Finding) :
    ∃ places pairs, Parted fs places pairs (distinct fs) (duplicates fs) :=
  parted_from fs .nil

/-- **No two findings have one canonical form** once duplicates are left out. -/
theorem nodup_distinct (fs : List Finding) : ((distinct fs).map canonical).Nodup := by
  obtain ⟨_, _, hparted⟩ := parted fs
  exact hparted.otherForms

/-- A second time there is nothing to leave out. -/
theorem distinct_distinct (fs : List Finding) :
    distinct (distinct fs) = distinct fs ∧ duplicates (distinct fs) = [] := by
  have hsame : distinct (distinct fs) = distinct fs :=
    distinctFrom_eq_self (fun _ _ => List.not_mem_nil) (nodup_distinct fs)
  refine ⟨hsame, ?_⟩
  -- All positions are in the kept part, so that none is left for the other.
  obtain ⟨places, pairs, hagain⟩ := parted (distinct fs)
  have hlength := hagain.once.length_eq
  have hkept := congrArg List.length hagain.keptStand
  have hdropped := congrArg List.length hagain.droppedStand
  rw [hsame] at hkept
  simp only [List.length_append, List.length_map, List.length_range] at hlength hkept hdropped
  exact List.eq_nil_of_length_eq_zero (by omega)

end SourceDrift.Finding
