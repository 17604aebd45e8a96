/-
Values up to the order of keys.

An object as data lists its members in some order, and what it denotes does not depend on that
order. `Alike` says so at every level: two lists are alike item by item, two objects key by key,
and nothing else is alike but what is the same. Sorting the keys at every level gives one value
for all that are alike, provided that no object lists a key twice; where one does, the members
behind the first with the key are seen by sorting and not by looking up.
-/
import Mathlib.Data.List.Nodup
import SourceDrift.Proofs.Json.Unambiguous

set_option autoImplicit false

namespace SourceDrift.Json

/-! ## Sorting members -/

variable {xs ys : List Member}

theorem mem_iff_lookup (hxs : (xs.map (·.1)).Nodup) {key : String} {v : Json} :
    (key, v) ∈ xs ↔ lookup key xs = some v := by
  refine ⟨fun hmem => ?_, mem_of_lookup⟩
  cases hlookup : lookup key xs with
  | none => exact absurd (List.mem_map_of_mem hmem) (lookup_eq_none_iff.1 hlookup)
  | some w =>
    have hsame : (key, w) = (key, v) :=
      List.inj_on_of_nodup_map hxs (mem_of_lookup hlookup) hmem rfl
    rw [(Prod.mk.inj hsame).2]

/-- Members that are looked up alike are the same members in another order. -/
theorem perm_iff_lookup (hxs : (xs.map (·.1)).Nodup) (hys : (ys.map (·.1)).Nodup) :
    xs.Perm ys ↔ ∀ key, lookup key xs = lookup key ys := by
  rw [List.perm_ext_iff_of_nodup hxs.of_map hys.of_map]
  constructor
  · intro h key
    refine Option.ext (fun v => ?_)
    rw [← mem_iff_lookup hxs, ← mem_iff_lookup hys]
    exact h (key, v)
  · rintro h ⟨key, v⟩
    rw [mem_iff_lookup hxs, mem_iff_lookup hys, h key]

/-- **Sorted members are what is looked up among them.** -/
theorem mergeSort_eq_iff (hxs : (xs.map (·.1)).Nodup) (hys : (ys.map (·.1)).Nodup) :
    xs.mergeSort (fun a b => decide (a.1 ≤ b.1)) = ys.mergeSort (fun a b => decide (a.1 ≤ b.1)) ↔
      ∀ key, lookup key xs = lookup key ys := by
  rw [← perm_iff_lookup hxs hys]
  constructor
  · intro h
    have hperm := List.mergeSort_perm xs (fun a b => decide (a.1 ≤ b.1))
    rw [h] at hperm
    exact hperm.symm.trans (List.mergeSort_perm ys _)
  · intro hperm
    have hsorted : ∀ ms : List Member, (ms.mergeSort fun a b => decide (a.1 ≤ b.1)).Pairwise
        fun a b => decide (a.1 ≤ b.1) = true :=
      List.pairwise_mergeSort
        (fun a b c hab hbc => decide_eq_true
          (String.le_trans (of_decide_eq_true hab) (of_decide_eq_true hbc)))
        (fun a b => by
          rw [Bool.or_eq_true, decide_eq_true_iff, decide_eq_true_iff]
          exact String.le_total a.1 b.1)
    refine List.Perm.eq_of_pairwise ?_ (hsorted xs) (hsorted ys)
      ((List.mergeSort_perm xs _).trans (hperm.trans (List.mergeSort_perm ys _).symm))
    -- Two members of which neither key is before the other have one key, and so are one member.
    intro a b ha hb hab hba
    have hkey := String.le_antisymm (of_decide_eq_true hab) (of_decide_eq_true hba)
    have hb : b ∈ xs := hperm.mem_iff.2 ((List.mergeSort_perm ys _).mem_iff.1 hb)
    exact List.inj_on_of_nodup_map hxs ((List.mergeSort_perm xs _).mem_iff.1 ha) hb hkey

theorem lookup_sortMembers (key : String) (members : List Member) :
    lookup key (sortMembers members) = (lookup key members).map sortKeys := by
  induction members with
  | nil => rfl
  | cons m rest ih =>
    obtain ⟨k, v⟩ := m
    rw [sortMembers, lookup, lookup]
    split
    · rfl
    · exact ih

theorem map_fst_sortMembers (members : List Member) :
    (sortMembers members).map (·.1) = members.map (·.1) := by
  induction members with
  | nil => rfl
  | cons m rest ih => rw [sortMembers, List.map_cons, List.map_cons, ih]

/-! ## Values that are alike -/

/-- **Two values are the same up to the order of keys**, at every level. -/
inductive Alike : Json → Json → Prop
  | refl (v : Json) : Alike v v
  | arr {items others : List Json} (h : List.Forall₂ Alike items others) :
      Alike (.arr items) (.arr others)
  | obj {members others : List Member}
      (h : ∀ key, Option.Rel Alike (lookup key members) (lookup key others)) :
      Alike (.obj members) (.obj others)

theorem forall₂_alike_refl (items : List Json) : List.Forall₂ Alike items items :=
  List.forall₂_same.2 (fun v _ => .refl v)

theorem rel_alike_refl (o : Option Json) : Option.Rel Alike o o := by
  cases o with
  | none => exact .none
  | some v => exact .some (.refl v)

theorem alike_arr_iff {items others : List Json} :
    Alike (.arr items) (.arr others) ↔ List.Forall₂ Alike items others := by
  constructor
  · intro h
    cases h with
    | refl => exact forall₂_alike_refl items
    | arr h => exact h
  · exact .arr

theorem alike_obj_iff {members others : List Member} :
    Alike (.obj members) (.obj others) ↔
      ∀ key, Option.Rel Alike (lookup key members) (lookup key others) := by
  constructor
  · intro h
    cases h with
    | refl => exact fun key => rel_alike_refl _
    | obj h => exact h
  · exact .obj

/-- What is no list and no object is alike to itself only. -/
theorem alike_scalar_iff {v w : Json} (harr : ∀ items, v ≠ .arr items)
    (hobj : ∀ members, v ≠ .obj members) : Alike v w ↔ v = w := by
  constructor
  · intro h
    cases h with
    | refl => rfl
    | arr _ => exact absurd rfl (harr _)
    | obj _ => exact absurd rfl (hobj _)
  · rintro rfl
    exact .refl v

/-- An object is alike to the same members in another order. -/
theorem alike_of_perm (hxs : (xs.map (·.1)).Nodup) (h : xs.Perm ys) :
    Alike (.obj xs) (.obj ys) := by
  have hys : (ys.map (·.1)).Nodup := (h.map _).nodup_iff.1 hxs
  refine .obj (fun key => ?_)
  rw [(perm_iff_lookup hxs hys).1 h key]
  exact rel_alike_refl _

mutual
/-- **Sorting the keys decides whether two values are alike.** -/
theorem sortKeys_eq_iff : ∀ v w : Json, v.hasUniqueKeys = true → w.hasUniqueKeys = true →
    (v.sortKeys = w.sortKeys ↔ Alike v w)
  | .null, w, _, _ | .bool _, w, _, _ | .int _, w, _, _ | .float _, w, _, _ | .str _, w, _, _ => by
    rw [alike_scalar_iff (by simp) (by simp)]
    cases w <;> simp [sortKeys]
  | .arr items, w, hv, hw => by
    cases w with
    | arr others =>
      rw [hasUniqueKeys] at hv hw
      rw [sortKeys, sortKeys, Json.arr.injEq, alike_arr_iff]
      exact sortItems_eq_iff items others hv hw
    | null | bool _ | int _ | float _ | str _ | obj _ =>
      exact iff_of_false (by simp [sortKeys]) (fun h => nomatch h)
  | .obj members, w, hv, hw => by
    cases w with
    | obj others =>
      rw [hasUniqueKeys, Bool.and_eq_true, decide_eq_true_iff, membersHaveUniqueKeys_iff] at hv hw
      rw [sortKeys, sortKeys, Json.obj.injEq, alike_obj_iff, mergeSort_eq_iff
        ((map_fst_sortMembers members).symm ▸ hv.1) ((map_fst_sortMembers others).symm ▸ hw.1)]
      -- The induction is on the first value, so it speaks of a member's value by membership.
      refine forall_congr' (fun key => ?_)
      rw [lookup_sortMembers, lookup_sortMembers]
      cases hmember : lookup key members with
      | none =>
        cases lookup key others with
        | none => exact ⟨fun _ => .none, fun _ => rfl⟩
        | some u => exact ⟨fun h => (by cases h), fun h => (by cases h)⟩
      | some u =>
        cases hother : lookup key others with
        | none => exact ⟨fun h => (by cases h), fun h => (by cases h)⟩
        | some t =>
          rw [Option.map_some, Option.map_some, Option.some_inj, Option.rel_some_some]
          exact sortKeys_member_eq_iff members (key, u) (mem_of_lookup hmember)
            (hv.2 _ (mem_of_lookup hmember)) t (hw.2 _ (mem_of_lookup hother))
    | null | bool _ | int _ | float _ | str _ | arr _ =>
      exact iff_of_false (by simp [sortKeys]) (fun h => nomatch h)

theorem sortItems_eq_iff : ∀ items others : List Json, haveUniqueKeys items = true →
    haveUniqueKeys others = true →
    (sortItems items = sortItems others ↔ List.Forall₂ Alike items others)
  | [], [], _, _ => ⟨fun _ => .nil, fun _ => rfl⟩
  | [], w :: others, _, _ => ⟨fun h => (by cases h), fun h => (by cases h)⟩
  | v :: items, [], _, _ => ⟨fun h => (by cases h), fun h => (by cases h)⟩
  | v :: items, w :: others, hv, hw => by
    rw [haveUniqueKeys, Bool.and_eq_true] at hv hw
    rw [sortItems, sortItems, List.cons.injEq, List.forall₂_cons, sortKeys_eq_iff v w hv.1 hw.1,
      sortItems_eq_iff items others hv.2 hw.2]

theorem sortKeys_member_eq_iff : ∀ members : List Member, ∀ m ∈ members,
    m.2.hasUniqueKeys = true → ∀ w : Json, w.hasUniqueKeys = true →
    (m.2.sortKeys = w.sortKeys ↔ Alike m.2 w)
  | [], _, hm, _, _, _ => absurd hm List.not_mem_nil
  | (k, v) :: rest, m, hm, hunique, w, hw => by
    rcases List.mem_cons.1 hm with rfl | hm
    · exact sortKeys_eq_iff v w hunique hw
    · exact sortKeys_member_eq_iff rest m hm hunique w hw
end

/-- **One canonical form, one value up to the order of keys.** -/
theorem canonical_eq_iff_alike {v w : Json} (hv : v.hasUniqueKeys = true)
    (hw : w.hasUniqueKeys = true) : v.canonical = w.canonical ↔ Alike v w := by
  rw [canonical_eq_iff, sortKeys_eq_iff v w hv hw]

/-! ## Values that can be written -/

theorem membersWritable_iff {members : List Member} :
    membersWritable members = true ↔ ∀ m ∈ members, m.2.isWritable = true := by
  induction members with
  | nil => exact ⟨fun _ _ hm => absurd hm List.not_mem_nil, fun _ => rfl⟩
  | cons m rest ih =>
    obtain ⟨k, v⟩ := m
    rw [membersWritable, Bool.and_eq_true, ih, List.forall_mem_cons]

mutual
theorem isWritable_sortKeys : ∀ v : Json, v.sortKeys.isWritable = v.isWritable
  | .null | .bool _ | .int _ | .float _ | .str _ => rfl
  | .arr items => by rw [sortKeys, isWritable, isWritable, areWritable_sortItems items]
  | .obj members => by
    have hperm := List.mergeSort_perm (sortMembers members) (fun a b => decide (a.1 ≤ b.1))
    rw [sortKeys, isWritable, isWritable, ← membersWritable_sortMembers members, Bool.eq_iff_iff,
      membersWritable_iff, membersWritable_iff]
    exact forall_congr' (fun m => by rw [hperm.mem_iff])

theorem areWritable_sortItems :
    ∀ items : List Json, areWritable (sortItems items) = areWritable items
  | [] => rfl
  | v :: rest => by
    rw [sortItems, areWritable, areWritable, isWritable_sortKeys v, areWritable_sortItems rest]

theorem membersWritable_sortMembers : ∀ members : List Member,
    membersWritable (sortMembers members) = membersWritable members
  | [] => rfl
  | (k, v) :: rest => by
    rw [sortMembers, membersWritable, membersWritable, isWritable_sortKeys v,
      membersWritable_sortMembers rest]
end

/-- Values with one canonical form are written both or neither. -/
theorem isWritable_eq_of_canonical {v w : Json} (h : v.canonical = w.canonical) :
    v.isWritable = w.isWritable := by
  rw [← isWritable_sortKeys v, canonical_eq_iff.1 h, isWritable_sortKeys w]

end SourceDrift.Json
