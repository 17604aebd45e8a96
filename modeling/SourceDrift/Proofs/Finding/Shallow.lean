/-
How deep a document may go.

Putting a finding down looks at each value that is kept as it came, and goes down a fixed number of
levels. Around such a value there are at most the levels of the model, from the mapping of an
element to the list of findings, so that what has been put down is never too deep to be read again.
The order of keys makes no difference.
-/
import SourceDrift.Host.Basic
import SourceDrift.Proofs.Json.Order

set_option autoImplicit false

namespace SourceDrift.Json

/-! ## Levels -/

theorem itemLevels_le_iff {items : List Json} {n : Nat} :
    itemLevels items ≤ n ↔ ∀ v ∈ items, v.levels ≤ n := by
  induction items with
  | nil => exact ⟨fun _ _ hv => absurd hv List.not_mem_nil, fun _ => Nat.zero_le n⟩
  | cons v rest ih => rw [itemLevels, Nat.max_le, ih, List.forall_mem_cons]

theorem memberLevels_le_iff {members : List Member} {n : Nat} :
    memberLevels members ≤ n ↔ ∀ m ∈ members, m.2.levels ≤ n := by
  induction members with
  | nil => exact ⟨fun _ _ hm => absurd hm List.not_mem_nil, fun _ => Nat.zero_le n⟩
  | cons m rest ih =>
    obtain ⟨k, v⟩ := m
    rw [memberLevels, Nat.max_le, ih, List.forall_mem_cons]

theorem memberLevels_perm {members others : List Member} (h : members.Perm others) :
    memberLevels members = memberLevels others := by
  refine Nat.le_antisymm (memberLevels_le_iff.2 fun m hm => ?_)
    (memberLevels_le_iff.2 fun m hm => ?_)
  · exact memberLevels_le_iff.1 (Nat.le_refl _) m (h.mem_iff.1 hm)
  · exact memberLevels_le_iff.1 (Nat.le_refl _) m (h.mem_iff.2 hm)

mutual
/-- Sorting keys moves members to and fro on their level. -/
theorem levels_sortKeys : ∀ v : Json, v.sortKeys.levels = v.levels
  | .null | .bool _ | .int _ | .float _ | .str _ => rfl
  | .arr items => by rw [sortKeys, levels, levels, itemLevels_sortItems items]
  | .obj members => by
    have hperm := List.mergeSort_perm (sortMembers members) (fun a b => decide (a.1 ≤ b.1))
    rw [sortKeys, levels, levels, memberLevels_perm hperm, memberLevels_sortMembers members]

theorem itemLevels_sortItems : ∀ items : List Json, itemLevels (sortItems items) = itemLevels items
  | [] => rfl
  | v :: rest => by
    rw [sortItems, itemLevels, itemLevels, levels_sortKeys v, itemLevels_sortItems rest]

theorem memberLevels_sortMembers : ∀ members : List Member,
    memberLevels (sortMembers members) = memberLevels members
  | [] => rfl
  | (k, v) :: rest => by
    rw [sortMembers, memberLevels, memberLevels, levels_sortKeys v, memberLevels_sortMembers rest]
end

/-- A value in as many lists as are asked for. -/
def nested : Nat → Json
  | 0 => .int 1
  | n + 1 => .arr [nested n]

/-! ## What can be put down, whatever the order of keys -/

theorem isShallow_iff {v : Json} : v.isShallow = true ↔ v.levels ≤ keptLevels := decide_eq_true_iff

@[simp] theorem isShallow_sortKeys (v : Json) : v.sortKeys.isShallow = v.isShallow := by
  rw [isShallow, isShallow, levels_sortKeys]

theorem all_sortItems (p : Json → Bool) (items : List Json) :
    (sortItems items).all p = items.all fun v => p v.sortKeys := by
  induction items with
  | nil => rfl
  | cons v rest ih => rw [sortItems, List.all_cons, List.all_cons, ih]

theorem all_sortMembers (p : Member → Bool) (members : List Member) :
    (sortMembers members).all p = members.all fun m => p (m.1, m.2.sortKeys) := by
  induction members with
  | nil => rfl
  | cons m rest ih =>
    obtain ⟨k, v⟩ := m
    rw [sortMembers, List.all_cons, List.all_cons, ih]

/-- What is asked of each member is not asked of their order. -/
theorem all_sorted (p : Member → Bool) (members : List Member) :
    ((sortMembers members).mergeSort fun a b => decide (a.1 ≤ b.1)).all p =
      members.all fun m => p (m.1, m.2.sortKeys) := by
  rw [(List.mergeSort_perm (sortMembers members) (fun a b => decide (a.1 ≤ b.1))).all_eq,
    all_sortMembers]

@[simp] theorem hasShallowMembers_sortKeys (v : Json) :
    v.sortKeys.hasShallowMembers = v.hasShallowMembers := by
  cases v with
  | obj members => simp [sortKeys, hasShallowMembers, all_sorted]
  | arr items => exact isShallow_sortKeys (.arr items)
  | null | bool _ | int _ | float _ | str _ => rfl

@[simp] theorem isShallowElement_sortKeys (v : Json) :
    v.sortKeys.isShallowElement = v.isShallowElement := by
  cases v with
  | obj members => simp [sortKeys, isShallowElement, all_sorted]
  | arr items => exact isShallow_sortKeys (.arr items)
  | null | bool _ | int _ | float _ | str _ => rfl

@[simp] theorem hasShallowElements_sortKeys (v : Json) :
    v.sortKeys.hasShallowElements = v.hasShallowElements := by
  cases v with
  | arr items => simp [sortKeys, hasShallowElements, all_sortItems]
  | obj members => exact isShallow_sortKeys (.obj members)
  | null | bool _ | int _ | float _ | str _ => rfl

theorem isShallowFinding_sortKeys (v : Json) :
    v.sortKeys.isShallowFinding = v.isShallowFinding := by
  cases v with
  | obj members => simp [sortKeys, isShallowFinding, all_sorted]
  | arr items => exact isShallow_sortKeys (.arr items)
  | null | bool _ | int _ | float _ | str _ => rfl

/-- Documents with one canonical form are put down both or neither. -/
theorem isShallowFinding_eq_of_canonical {v w : Json} (h : v.canonical = w.canonical) :
    v.isShallowFinding = w.isShallowFinding := by
  rw [← isShallowFinding_sortKeys v, canonical_eq_iff.1 h, isShallowFinding_sortKeys w]

/-! ## Room for what has been put down -/

theorem levels_of_hasShallowMembers {v : Json} (h : v.hasShallowMembers = true) :
    v.levels ≤ keptLevels + 1 := by
  cases v with
  | obj members =>
    rw [hasShallowMembers, List.all_eq_true] at h
    exact Nat.succ_le_succ (memberLevels_le_iff.2 fun m hm => isShallow_iff.1 (h m hm))
  | _ => exact Nat.le_succ_of_le (isShallow_iff.1 h)

theorem levels_of_isShallowElement {v : Json} (h : v.isShallowElement = true) :
    v.levels ≤ keptLevels + 2 := by
  cases v with
  | obj members =>
    rw [isShallowElement, List.all_eq_true] at h
    refine Nat.succ_le_succ (memberLevels_le_iff.2 fun m hm => ?_)
    have hm := h m hm
    split at hm
    · exact levels_of_hasShallowMembers hm
    · exact Nat.le_succ_of_le (isShallow_iff.1 hm)
  | _ => exact Nat.le_add_right_of_le (isShallow_iff.1 h)

theorem levels_of_hasShallowElements {v : Json} (h : v.hasShallowElements = true) :
    v.levels ≤ keptLevels + 3 := by
  cases v with
  | arr items =>
    rw [hasShallowElements, List.all_eq_true] at h
    exact Nat.succ_le_succ (itemLevels_le_iff.2 fun v hv => levels_of_isShallowElement (h v hv))
  | _ => exact Nat.le_add_right_of_le (isShallow_iff.1 h)

theorem levels_of_isShallowFinding {v : Json} (h : v.isShallowFinding = true) :
    v.levels ≤ keptLevels + 4 := by
  cases v with
  | obj members =>
    rw [isShallowFinding, List.all_eq_true] at h
    refine Nat.succ_le_succ (memberLevels_le_iff.2 fun m hm => ?_)
    have hm := h m hm
    split at hm
    · exact levels_of_hasShallowElements hm
    · exact Nat.le_add_right_of_le (isShallow_iff.1 hm)
  | _ => exact Nat.le_add_right_of_le (isShallow_iff.1 h)

/-- **There is always room for documents that have been put down**, in a list of any length. -/
theorem levels_le_of_isShallowFinding {documents : List Json} {room : Nat}
    (hroom : Platform.assuredLevels ≤ room) (h : ∀ v ∈ documents, v.isShallowFinding = true) :
    (Json.arr documents).levels ≤ room := by
  have hitems : itemLevels documents ≤ keptLevels + 4 :=
    itemLevels_le_iff.2 fun v hv => levels_of_isShallowFinding (h v hv)
  exact Nat.le_trans (Nat.succ_le_succ hitems) (Nat.le_trans (by decide) hroom)

end SourceDrift.Json
