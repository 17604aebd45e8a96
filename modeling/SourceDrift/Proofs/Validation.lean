/-
When a check passes.

A check that passes has answered what the value denotes, and a check made of others
passes exactly when all of them do. Each combinator gets one equivalence; with them a
reader of records is taken apart into the readers of its fields.
-/
import Mathlib.Data.List.Forall2
import SourceDrift.Validation

set_option autoImplicit false

namespace SourceDrift.Checked

variable {α β : Type}

theorem map_eq_ok {f : α → β} {x : Checked α} {b : β} :
    x.map f = .ok b ↔ ∃ a, x = .ok a ∧ f a = b := by
  cases x with
  | error issues =>
    constructor
    · intro h
      cases h
    · rintro ⟨_, h, -⟩
      cases h
  | ok a =>
    constructor
    · exact fun h => ⟨a, rfl, Except.ok.inj h⟩
    · rintro ⟨_, h, rfl⟩
      cases h
      rfl

theorem under_eq_ok {step : Step} {x : Checked α} {a : α} : under step x = .ok a ↔ x = .ok a := by
  cases x with
  | error issues =>
    constructor
    · intro h
      cases h
    · intro h
      cases h
  | ok b => rfl

theorem both_eq_ok {x : Checked α} {y : Checked β} {p : α × β} :
    both x y = .ok p ↔ x = .ok p.1 ∧ y = .ok p.2 := by
  obtain ⟨a, b⟩ := p
  cases x with
  | error issues => cases y <;> exact ⟨fun h => (by cases h), fun h => (by cases h.1)⟩
  | ok a' =>
    cases y with
    | error issues => exact ⟨fun h => (by cases h), fun h => (by cases h.2)⟩
    | ok b' =>
      constructor
      · intro h
        cases h
        exact ⟨rfl, rfl⟩
      · rintro ⟨ha, hb⟩
        cases ha
        cases hb
        rfl

/-- A list passes when its items do, one by one. -/
theorem items_eq_ok {check : Json → Checked α} {vs : List Json} {as : List α} {i : Nat} :
    items check i vs = .ok as ↔ List.Forall₂ (fun v a => check v = .ok a) vs as := by
  induction vs generalizing i as with
  | nil =>
    rw [List.forall₂_nil_left_iff]
    exact ⟨fun h => (Except.ok.inj h).symm, fun h => by rw [h]; rfl⟩
  | cons v rest ih =>
    rw [items, map_eq_ok, List.forall₂_cons_left_iff]
    constructor
    · rintro ⟨⟨a, more⟩, h, rfl⟩
      rw [both_eq_ok, under_eq_ok, ih] at h
      exact ⟨a, more, h.1, h.2, rfl⟩
    · rintro ⟨a, more, ha, hmore, rfl⟩
      refine ⟨(a, more), ?_, rfl⟩
      rw [both_eq_ok, under_eq_ok, ih]
      exact ⟨ha, hmore⟩

/-- Each answer of a list comes from an item. -/
theorem exists_of_mem_forall₂ {R : α → β → Prop} {as : List α} {bs : List β}
    (h : List.Forall₂ R as bs) {b : β} (hb : b ∈ bs) : ∃ a ∈ as, R a b := by
  induction h with
  | nil => cases hb
  | @cons a b' as bs hab _ ih =>
    rcases List.mem_cons.1 hb with rfl | hb
    · exact ⟨a, List.mem_cons_self, hab⟩
    · obtain ⟨a', ha', hab'⟩ := ih hb
      exact ⟨a', List.mem_cons_of_mem _ ha', hab'⟩

/-- Lists whose items agree one by one in something agree in it as lists. -/
theorem map_eq_of_forall₂ {γ : Type} {R : α → β → Prop} {f : α → γ} {g : β → γ} {as : List α}
    {bs : List β} (hR : ∀ a ∈ as, ∀ b, R a b → g b = f a) (h : List.Forall₂ R as bs) :
    bs.map g = as.map f := by
  induction h with
  | nil => rfl
  | cons hab _ ih =>
    rw [List.forall_mem_cons] at hR
    rw [List.map_cons, List.map_cons, hR.1 _ hab, ih hR.2]

theorem list_eq_ok {check : Json → Checked α} {v : Json} {as : List α} :
    list check v = .ok as ↔
    ∃ vs, v = .arr vs ∧ List.Forall₂ (fun v a => check v = .ok a) vs as := by
  constructor
  · intro h
    cases v with
    | arr vs => exact ⟨vs, rfl, items_eq_ok.1 h⟩
    | null | bool _ | int _ | float _ | str _ | obj _ => cases h
  · rintro ⟨vs, rfl, h⟩
    exact items_eq_ok.2 h

theorem text_eq_ok {v : Json} {s : String} : text v = .ok s ↔ v = .str s := by
  constructor
  · intro h
    cases v with
    | str t =>
      cases h
      rfl
    | null | bool _ | int _ | float _ | arr _ | obj _ => cases h
  · rintro rfl
    rfl

theorem list_text_eq_ok {v : Json} {ss : List String} :
    list text v = .ok ss ↔ v = .arr (ss.map .str) := by
  rw [list_eq_ok]
  constructor
  · rintro ⟨vs, rfl, hall⟩
    have hitems : ss.map Json.str = vs.map id :=
      map_eq_of_forall₂ (fun _ _ _ h => (text_eq_ok.1 h).symm) hall
    rw [hitems, List.map_id]
  · rintro rfl
    refine ⟨_, rfl, ?_⟩
    rw [List.forall₂_map_left_iff, List.forall₂_same]
    exact fun s _ => rfl

theorem nullable_eq_ok {check : Json → Checked α} {v : Json} {o : Option α} :
    nullable check v = .ok o ↔
      (v = .null ∧ o = none) ∨ (v ≠ .null ∧ ∃ a, check v = .ok a ∧ o = some a) := by
  unfold nullable
  split
  · constructor
    · intro h
      exact .inl ⟨rfl, (Except.ok.inj h).symm⟩
    · rintro (⟨-, rfl⟩ | ⟨hne, -⟩)
      · rfl
      · exact absurd rfl hne
  · next hne =>
    rw [map_eq_ok]
    constructor
    · rintro ⟨a, ha, rfl⟩
      exact .inr ⟨hne, a, ha, rfl⟩
    · rintro (⟨rfl, -⟩ | ⟨-, a, ha, rfl⟩)
      · exact absurd rfl hne
      · exact ⟨a, ha, rfl⟩

/-- A field passes when it is absent, or its value passes. -/
theorem member_eq_ok {check : Json → Checked α} {key : String} {members : List Json.Member}
    {o : Option α} :
    member check key members = .ok o ↔
      (Json.lookup key members = none ∧ o = none) ∨
        ∃ v a, Json.lookup key members = some v ∧ check v = .ok a ∧ o = some a := by
  unfold member
  cases Json.lookup key members with
  | none =>
    constructor
    · intro h
      exact .inl ⟨rfl, (Except.ok.inj h).symm⟩
    · rintro (⟨-, rfl⟩ | ⟨v, a, h, -⟩)
      · rfl
      · cases h
  | some v =>
    dsimp only
    rw [map_eq_ok]
    constructor
    · rintro ⟨a, ha, rfl⟩
      exact .inr ⟨v, a, rfl, under_eq_ok.1 ha, rfl⟩
    · rintro (⟨h, -⟩ | ⟨w, a, h, ha, rfl⟩)
      · cases h
      · cases h
        exact ⟨a, under_eq_ok.2 ha, rfl⟩

/-- A field that was written passes with what its value is read as. -/
theorem member_written {check : Json → Checked β} {key : String} {members : List Json.Member}
    {o : Option α} (toJson : α → Json) (norm : α → β)
    (hlookup : Json.lookup key members = o.map toJson)
    (hcheck : ∀ a, o = some a → check (toJson a) = .ok (norm a)) :
    member check key members = .ok (o.map norm) := by
  rw [member_eq_ok]
  cases o with
  | none => exact .inl ⟨hlookup, rfl⟩
  | some a => exact .inr ⟨toJson a, norm a, hlookup, hcheck a rfl, rfl⟩

theorem member_written_self {check : Json → Checked α} {key : String} {members : List Json.Member}
    {o : Option α} (toJson : α → Json) (hlookup : Json.lookup key members = o.map toJson)
    (hcheck : ∀ a, check (toJson a) = .ok a) : member check key members = .ok o := by
  have h := member_written toJson id hlookup (fun a _ => hcheck a)
  rwa [Option.map_id] at h

theorem member_eq_none {check : Json → Checked α} {key : String} {members : List Json.Member}
    (h : member check key members = .ok none) : Json.lookup key members = none := by
  rcases member_eq_ok.1 h with ⟨hnone, -⟩ | ⟨v, a, -, -, hsome⟩
  · exact hnone
  · cases hsome

theorem member_eq_some {check : Json → Checked α} {key : String}
    {members : List Json.Member} {a : α}
    (h : member check key members = .ok (some a)) :
    ∃ v, Json.lookup key members = some v ∧ check v = .ok a := by
  rcases member_eq_ok.1 h with ⟨-, hnone⟩ | ⟨v, b, hlookup, hcheck, hsome⟩
  · cases hnone
  · cases hsome
    exact ⟨v, hlookup, hcheck⟩

theorem nullable_eq_some {check : Json → Checked α} {v : Json} {a : α}
    (h : nullable check v = .ok (some a)) : check v = .ok a := by
  rcases nullable_eq_ok.1 h with ⟨-, hnone⟩ | ⟨-, b, hcheck, hsome⟩
  · cases hnone
  · cases hsome
    exact hcheck

theorem dictionary_eq_ok {v : Json} {members : List Json.Member} (h : dictionary v = .ok members) :
    v = .obj members := by
  cases v with
  | obj inner =>
    cases h
    rfl
  | null | bool _ | int _ | float _ | str _ | arr _ => cases h

end SourceDrift.Checked
