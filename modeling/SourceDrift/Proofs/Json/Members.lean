/-
Members of an object: looking them up, leaving some out, writing some in front.

A document is a row of given fields with the extras behind them, so what a reader finds
under a key is the field's own value or an extra's. The lemmas say so once for each way
in which such a row is built.

An object as data may list a key twice, which no text can: a key that is given again
takes the place of the first. `hasUniqueKeys` is the values that texts denote.
-/
import SourceDrift.Finding.Document

set_option autoImplicit false

namespace SourceDrift.Json

variable {α : Type}

/-! ## Looking up -/

theorem lookup_append (key : String) (xs ys : List Member) :
    lookup key (xs ++ ys) = (lookup key xs).or (lookup key ys) := by
  induction xs with
  | nil => rfl
  | cons m rest ih =>
    obtain ⟨k, v⟩ := m
    rw [List.cons_append, lookup, lookup]
    split
    · rfl
    · exact ih

theorem lookup_given (key k : String) (toJson : α → Json) (a : Option α) :
    lookup key (given k toJson a) = if k = key then a.map toJson else none := by
  cases a with
  | none => rw [Option.map_none, ite_self]; rfl
  | some a => rfl

theorem lookup_given_ne {key k : String} (hk : k ≠ key) (toJson : α → Json) (a : Option α) :
    lookup key (given k toJson a) = none := by
  rw [lookup_given, if_neg hk]

theorem without_cons (keys : List String) (k : String) (v : Json) (rest : List Member) :
    without keys ((k, v) :: rest) =
      if k ∈ keys then without keys rest else (k, v) :: without keys rest := by
  rw [without, List.filter_cons]
  simp only [Bool.not_eq_true', ← Bool.not_eq_true, List.contains_iff_mem, ite_not]
  rfl

theorem lookup_without (key : String) (keys : List String) (members : List Member) :
    lookup key (without keys members) = if key ∈ keys then none else lookup key members := by
  induction members with
  | nil => exact (ite_self none).symm
  | cons m rest ih =>
    obtain ⟨k, v⟩ := m
    rw [without_cons, lookup]
    by_cases hk : k ∈ keys
    · rw [if_pos hk, ih]
      by_cases hkey : key ∈ keys
      · rw [if_pos hkey, if_pos hkey]
      · have hne : k ≠ key := fun h => hkey (h ▸ hk)
        rw [if_neg hkey, if_neg hkey, if_neg hne]
    · rw [if_neg hk, lookup, ih]
      by_cases hkey : k = key
      · rw [if_pos hkey, if_pos hkey, if_neg (hkey ▸ hk)]
      · rw [if_neg hkey, if_neg hkey]

theorem lookup_eq_none_iff {key : String} {members : List Member} :
    lookup key members = none ↔ key ∉ members.map (·.1) := by
  induction members with
  | nil => exact ⟨fun _ => List.not_mem_nil, fun _ => rfl⟩
  | cons m rest ih =>
    obtain ⟨k, v⟩ := m
    rw [lookup, List.map_cons, List.mem_cons, not_or, ← ih]
    by_cases hk : k = key
    · rw [if_pos hk]
      exact ⟨fun h => absurd h (Option.some_ne_none v), fun h => absurd hk.symm h.1⟩
    · rw [if_neg hk]
      exact ⟨fun h => ⟨Ne.symm hk, h⟩, fun h => h.2⟩

theorem mem_of_lookup {key : String} {v : Json} {members : List Member}
    (h : lookup key members = some v) : (key, v) ∈ members := by
  induction members with
  | nil => cases h
  | cons m rest ih =>
    obtain ⟨k, w⟩ := m
    rw [lookup] at h
    split at h
    · next hk =>
      rw [hk, Option.some.inj h]
      exact List.mem_cons_self
    · exact List.mem_cons_of_mem _ (ih h)

theorem without_append (keys : List String) (xs ys : List Member) :
    without keys (xs ++ ys) = without keys xs ++ without keys ys :=
  List.filter_append ..

theorem without_given_mem {keys : List String} {key : String} (hkey : key ∈ keys)
    (toJson : α → Json) (a : Option α) : without keys (given key toJson a) = [] := by
  cases a with
  | none => rfl
  | some a =>
    rw [given, without_cons, if_pos hkey]
    rfl

/-- Nothing is left out where none of the keys occurs. -/
theorem without_eq_self {keys : List String} {members : List Member}
    (hkeys : ∀ key ∈ keys, lookup key members = none) : without keys members = members := by
  refine List.filter_eq_self.2 (fun m hm => ?_)
  rw [Bool.not_eq_true', ← Bool.not_eq_true, List.contains_iff_mem]
  exact fun hkey => lookup_eq_none_iff.1 (hkeys _ hkey) (List.mem_map_of_mem hm)

/-! ## Dropping what no document holds -/

theorem lookup_dropNonFiniteMembers (key : String) (members : List Member) :
    lookup key (dropNonFiniteMembers members) = (lookup key members).map dropNonFinite := by
  induction members with
  | nil => rfl
  | cons m rest ih =>
    obtain ⟨k, v⟩ := m
    rw [dropNonFiniteMembers, lookup, lookup]
    split
    · rfl
    · exact ih

theorem map_fst_dropNonFiniteMembers (members : List Member) :
    (dropNonFiniteMembers members).map (·.1) = members.map (·.1) := by
  induction members with
  | nil => rfl
  | cons m rest ih => rw [dropNonFiniteMembers, List.map_cons, List.map_cons, ih]

mutual
/-- What has been dropped once is not there to be dropped again. -/
theorem dropNonFinite_idem : ∀ v : Json, v.dropNonFinite.dropNonFinite = v.dropNonFinite
  | .null => rfl
  | .bool _ => rfl
  | .int _ => rfl
  | .float x => by
    rw [dropNonFinite]
    split
    · next hfinite => rw [dropNonFinite, if_pos hfinite]
    · rfl
  | .str _ => rfl
  | .arr items => by rw [dropNonFinite, dropNonFinite, dropNonFiniteItems_idem items]
  | .obj members => by rw [dropNonFinite, dropNonFinite, dropNonFiniteMembers_idem members]

theorem dropNonFiniteItems_idem :
    ∀ items : List Json, dropNonFiniteItems (dropNonFiniteItems items) = dropNonFiniteItems items
  | [] => rfl
  | v :: rest => by
    rw [dropNonFiniteItems, dropNonFiniteItems, dropNonFinite_idem v, dropNonFiniteItems_idem rest]

theorem dropNonFiniteMembers_idem : ∀ members : List Member,
    dropNonFiniteMembers (dropNonFiniteMembers members) = dropNonFiniteMembers members
  | [] => rfl
  | (k, v) :: rest => by
    rw [dropNonFiniteMembers, dropNonFiniteMembers, dropNonFinite_idem v,
      dropNonFiniteMembers_idem rest]
end

/-! ## Values that texts denote -/

mutual
/-- Whether no object of a value lists a key twice. -/
def hasUniqueKeys : Json → Bool
  | .arr items => haveUniqueKeys items
  | .obj members => decide (members.map (·.1)).Nodup && membersHaveUniqueKeys members
  | _ => true

/-- Whether no object of the items lists a key twice. -/
def haveUniqueKeys : List Json → Bool
  | [] => true
  | v :: rest => hasUniqueKeys v && haveUniqueKeys rest

/-- Whether no object of the members' values lists a key twice. -/
def membersHaveUniqueKeys : List Member → Bool
  | [] => true
  | (_, v) :: rest => hasUniqueKeys v && membersHaveUniqueKeys rest
end

theorem haveUniqueKeys_iff {items : List Json} :
    haveUniqueKeys items = true ↔ ∀ v ∈ items, v.hasUniqueKeys = true := by
  induction items with
  | nil => exact ⟨fun _ _ hv => absurd hv List.not_mem_nil, fun _ => rfl⟩
  | cons v rest ih => rw [haveUniqueKeys, Bool.and_eq_true, ih, List.forall_mem_cons]

theorem membersHaveUniqueKeys_iff {members : List Member} :
    membersHaveUniqueKeys members = true ↔ ∀ m ∈ members, m.2.hasUniqueKeys = true := by
  induction members with
  | nil => exact ⟨fun _ _ hm => absurd hm List.not_mem_nil, fun _ => rfl⟩
  | cons m rest ih =>
    obtain ⟨k, v⟩ := m
    rw [membersHaveUniqueKeys, Bool.and_eq_true, ih, List.forall_mem_cons]

theorem hasUniqueKeys_of_lookup {key : String} {v : Json} {members : List Member}
    (hunique : (Json.obj members).hasUniqueKeys = true) (h : lookup key members = some v) :
    v.hasUniqueKeys = true := by
  rw [hasUniqueKeys, Bool.and_eq_true, membersHaveUniqueKeys_iff] at hunique
  exact hunique.2 _ (mem_of_lookup h)

mutual
theorem hasUniqueKeys_dropNonFinite :
    ∀ v : Json, v.dropNonFinite.hasUniqueKeys = v.hasUniqueKeys
  | .null => rfl
  | .bool _ => rfl
  | .int _ => rfl
  | .float x => by
    rw [dropNonFinite]
    split <;> rfl
  | .str _ => rfl
  | .arr items => by
    rw [dropNonFinite, hasUniqueKeys, hasUniqueKeys, haveUniqueKeys_dropNonFinite items]
  | .obj members => by
    rw [dropNonFinite, hasUniqueKeys, hasUniqueKeys, map_fst_dropNonFiniteMembers,
      membersHaveUniqueKeys_dropNonFinite members]

theorem haveUniqueKeys_dropNonFinite :
    ∀ items : List Json, haveUniqueKeys (dropNonFiniteItems items) = haveUniqueKeys items
  | [] => rfl
  | v :: rest => by
    rw [dropNonFiniteItems, haveUniqueKeys, haveUniqueKeys, hasUniqueKeys_dropNonFinite v,
      haveUniqueKeys_dropNonFinite rest]

theorem membersHaveUniqueKeys_dropNonFinite : ∀ members : List Member,
    membersHaveUniqueKeys (dropNonFiniteMembers members) = membersHaveUniqueKeys members
  | [] => rfl
  | (k, v) :: rest => by
    rw [dropNonFiniteMembers, membersHaveUniqueKeys, membersHaveUniqueKeys,
      hasUniqueKeys_dropNonFinite v, membersHaveUniqueKeys_dropNonFinite rest]
end

theorem membersHaveUniqueKeys_append (xs ys : List Member) :
    membersHaveUniqueKeys (xs ++ ys) = (membersHaveUniqueKeys xs && membersHaveUniqueKeys ys) := by
  induction xs with
  | nil => rfl
  | cons m rest ih =>
    obtain ⟨k, v⟩ := m
    rw [List.cons_append, membersHaveUniqueKeys, membersHaveUniqueKeys, ih, Bool.and_assoc]

theorem membersHaveUniqueKeys_given {key : String} {toJson : α → Json} {o : Option α}
    (h : ∀ a, o = some a → (toJson a).hasUniqueKeys = true) :
    membersHaveUniqueKeys (given key toJson o) = true := by
  cases o with
  | none => rfl
  | some a => rw [given, membersHaveUniqueKeys, h a rfl]; rfl

/-- A document's keys are among the names of its fields and the keys of its extras. -/
theorem map_fst_given_sublist (key : String) (toJson : α → Json) (o : Option α) :
    ((given key toJson o).map (·.1)).Sublist [key] := by
  cases o with
  | none => exact List.nil_sublist _
  | some a => exact List.Sublist.refl _

/-- A row of fields with extras behind it has each key once, where the extras do and none
of them has a field's name. -/
theorem hasUniqueKeys_row {names : List String} {fields extras : List Member}
    (hnames : names.Nodup) (hkeys : (fields.map (·.1)).Sublist names)
    (hextras : ∀ key ∈ names, lookup key extras = none)
    (hfields : membersHaveUniqueKeys fields = true)
    (hunique : (Json.obj extras).hasUniqueKeys = true) :
    (Json.obj (fields ++ dropNonFiniteMembers extras)).hasUniqueKeys = true := by
  rw [hasUniqueKeys, Bool.and_eq_true, decide_eq_true_iff] at hunique ⊢
  rw [membersHaveUniqueKeys_append, membersHaveUniqueKeys_dropNonFinite, hfields, hunique.2,
    List.map_append, map_fst_dropNonFiniteMembers]
  refine ⟨List.nodup_append.2 ⟨hnames.sublist hkeys, hunique.1, ?_⟩, rfl⟩
  rintro key hkey _ hextra rfl
  exact lookup_eq_none_iff.1 (hextras key (hkeys.subset hkey)) hextra

end SourceDrift.Json
