/-
What actions do.

An action made of others succeeds when they do, one after the other; `bind_eq_ok` takes it
apart so that no proof opens the monad. What an action leaves behind when it fails is told by
bounds: a relation between the worlds before and after that carries over from one action to
the next, so that an action stays within it when those that it is made of do.
-/
import SourceDrift.Store.Repository

set_option autoImplicit false

namespace SourceDrift

theorem eq_ok_of_toOption {ε α : Type} {r : Except ε α} {a : α} (h : r.toOption = some a) :
    r = .ok a := by
  cases r with
  | ok b => exact congrArg Except.ok (Option.some.inj h)
  | error e => cases h

/-! ## One action after another -/

section

variable {ε σ α β : Type} {x : EStateM ε σ α} {f : α → EStateM ε σ β} {s s' : σ} {a : α} {b : β}
  {e : ε}

theorem bind_eq_ok : (x >>= f) s = .ok b s' ↔ ∃ a s₁, x s = .ok a s₁ ∧ f a s₁ = .ok b s' := by
  show EStateM.bind x f s = _ ↔ _
  unfold EStateM.bind
  cases x s with
  | ok a s₁ =>
    constructor
    · exact fun h => ⟨a, s₁, rfl, h⟩
    · rintro ⟨a', s₂, heq, h⟩
      cases heq
      exact h
  | error e s₁ =>
    constructor
    · intro h
      cases h
    · rintro ⟨a, s₂, heq, -⟩
      cases heq

theorem bind_of_ok {s₁ : σ} (hx : x s = .ok a s₁) : (x >>= f) s = f a s₁ := by
  show EStateM.bind x f s = _
  unfold EStateM.bind
  rw [hx]

theorem bind_of_error {s₁ : σ} (hx : x s = .error e s₁) : (x >>= f) s = .error e s₁ := by
  show EStateM.bind x f s = _
  unfold EStateM.bind
  rw [hx]

theorem bind_eq_error : (x >>= f) s = .error e s' ↔
    x s = .error e s' ∨ ∃ a s₁, x s = .ok a s₁ ∧ f a s₁ = .error e s' := by
  cases hx : x s with
  | ok a s₁ =>
    rw [bind_of_ok hx]
    constructor
    · exact fun h => .inr ⟨a, s₁, rfl, h⟩
    · rintro (heq | ⟨a', s₂, heq, h⟩)
      · cases heq
      · cases heq
        exact h
  | error e' s₁ =>
    rw [bind_of_error hx]
    constructor
    · intro h
      cases h
      exact .inl rfl
    · rintro (h | ⟨a', s₂, heq, -⟩)
      · cases h
        rfl
      · cases heq

end

namespace Action

variable {α β : Type}

theorem ofExcept_eq_ok {r : Except Failure α} {h h' : Host} {a : α} :
    ofExcept r h = .ok a h' ↔ r = .ok a ∧ h' = h := by
  cases r with
  | ok b =>
    constructor
    · intro heq
      cases heq
      exact ⟨rfl, rfl⟩
    · rintro ⟨heq, rfl⟩
      cases heq
      rfl
  | error e =>
    constructor
    · intro heq
      cases heq
    · rintro ⟨heq, -⟩
      cases heq

theorem ofExcept_eq_error {r : Except Failure α} {h h' : Host} {e : Failure} :
    ofExcept r h = .error e h' ↔ r = .error e ∧ h' = h := by
  cases r with
  | ok a =>
    constructor
    · intro heq
      cases heq
    · rintro ⟨heq, -⟩
      cases heq
  | error e' =>
    constructor
    · intro heq
      cases heq
      exact ⟨rfl, rfl⟩
    · rintro ⟨heq, rfl⟩
      cases heq
      rfl

/-- A question is answered off the tree and the directory, and changes nothing. -/
theorem query_eq_ofExcept (f : FileTree → Place → Except Failure α) (h : Host) :
    query f h = ofExcept (f h.files h.cwd) h := by
  unfold query
  cases f h.files h.cwd <;> rfl

theorem query_eq_ok {f : FileTree → Place → Except Failure α} {h h' : Host} {a : α} :
    query f h = .ok a h' ↔ f h.files h.cwd = .ok a ∧ h' = h := by
  rw [query_eq_ofExcept, ofExcept_eq_ok]

theorem query_eq_error {f : FileTree → Place → Except Failure α} {h h' : Host} {e : Failure} :
    query f h = .error e h' ↔ f h.files h.cwd = .error e ∧ h' = h := by
  rw [query_eq_ofExcept, ofExcept_eq_error]

theorem change_eq_ok {f : FileTree → Place → Except Failure FileTree} {h h' : Host} {u : Unit} :
    change f h = .ok u h' ↔ ∃ files, f h.files h.cwd = .ok files ∧
    h' = { h with files := files } := by
  unfold change
  cases f h.files h.cwd with
  | ok files =>
    constructor
    · intro heq
      cases heq
      exact ⟨files, rfl, rfl⟩
    · rintro ⟨files', heq, rfl⟩
      cases heq
      rfl
  | error e =>
    constructor
    · intro heq
      cases heq
    · rintro ⟨files, heq, -⟩
      cases heq

theorem change_eq_error {f : FileTree → Place → Except Failure FileTree} {h h' : Host} {e : Failure}
    (hrun : change f h = .error e h') : h' = h := by
  unfold change at hrun
  split at hrun
  · cases hrun
  · cases hrun
    rfl

section

variable {caught : Failure → Bool} {x : Action α} {h h' : Host}

theorem catching_of_ok {a : α} (hx : x h = .ok a h') : catching caught x h = .ok (.ok a) h' := by
  rw [catching, hx]

theorem catching_of_error {e : Failure} (hx : x h = .error e h') (he : caught e = true) :
    catching caught x h = .ok (.error e) h' := by
  rw [catching, hx]
  exact if_pos he

theorem catching_of_uncaught {e : Failure} (hx : x h = .error e h') (he : caught e = false) :
    catching caught x h = .error e h' := by
  rw [catching, hx]
  exact if_neg (he ▸ Bool.false_ne_true)

theorem catching_eq_ok {r : Except Failure α} : catching caught x h = .ok r h' ↔
    (∃ a, x h = .ok a h' ∧ r = .ok a) ∨
      ∃ e, x h = .error e h' ∧ caught e = true ∧ r = .error e := by
  constructor
  · intro hrun
    cases hx : x h with
    | ok a h₁ =>
      rw [catching_of_ok hx] at hrun
      cases hrun
      exact .inl ⟨a, rfl, rfl⟩
    | error e h₁ =>
      cases he : caught e with
      | true =>
        rw [catching_of_error hx he] at hrun
        cases hrun
        exact .inr ⟨e, rfl, he, rfl⟩
      | false =>
        rw [catching_of_uncaught hx he] at hrun
        cases hrun
  · rintro (⟨a, hx, rfl⟩ | ⟨e, hx, he, rfl⟩)
    · exact catching_of_ok hx
    · exact catching_of_error hx he

end

/-! ## Bounds -/

/-- The world that an action leaves, whether or not it succeeds. -/
def after (x : Action α) (h : Host) : Host :=
  match x h with
  | .ok _ h' => h'
  | .error _ h' => h'

theorem after_of_ok {x : Action α} {h h' : Host} {a : α} (hx : x h = .ok a h') :
    x.after h = h' := by
  rw [after, hx]

theorem after_of_error {x : Action α} {h h' : Host} {e : Failure} (hx : x h = .error e h') :
    x.after h = h' := by
  rw [after, hx]

/-- Whether an action answers at all. -/
def answers (x : Action α) (h : Host) : Bool :=
  match x h with
  | .ok _ _ => true
  | .error _ _ => false

theorem eq_ok_of_answers {x : Action α} {h : Host} (hrun : x.answers h = true) :
    ∃ a, x h = .ok a (x.after h) := by
  unfold answers at hrun
  unfold after
  cases hx : x h with
  | ok a h' => exact ⟨a, rfl⟩
  | error e h' =>
    rw [hx] at hrun
    cases hrun

theorem after_bind_of_ok {x : Action α} {f : α → Action β} {h h' : Host} {a : α}
    (hx : x h = .ok a h') : (x >>= f).after h = (f a).after h' := by
  rw [after, after, bind_of_ok hx]

theorem after_bind_of_error {x : Action α} {f : α → Action β} {h h' : Host} {e : Failure}
    (hx : x h = .error e h') : (x >>= f).after h = h' := by
  rw [after, bind_of_error hx]

/-- A bound on what is done to the world: nothing may be done, and one thing after another. -/
structure Bound where
  Allows : Host → Host → Prop
  refl : ∀ h, Allows h h
  trans : ∀ {h h' h'' : Host}, Allows h h' → Allows h' h'' → Allows h h''

/-- Whether an action stays within a bound, also where it fails. -/
def Within (b : Bound) (x : Action α) : Prop := ∀ h, b.Allows h (x.after h)

variable {b : Bound}

theorem within_pure (a : α) : Within b (pure a : Action α) := b.refl

theorem within_throw (e : Failure) : Within b (throw e : Action α) := b.refl

theorem within_ofExcept (r : Except Failure α) : Within b (ofExcept r) := by
  intro h
  cases r <;> exact b.refl h

theorem within_query (f : FileTree → Place → Except Failure α) : Within b (query f) := by
  intro h
  unfold after query
  cases f h.files h.cwd <;> exact b.refl h

theorem within_change {f : FileTree → Place → Except Failure FileTree}
    (hf : ∀ (h : Host) files, f h.files h.cwd = .ok files → b.Allows h { h with files := files }) :
    Within b (change f) := by
  intro h
  unfold after change
  cases hrun : f h.files h.cwd with
  | error e => exact b.refl h
  | ok files => exact hf h files hrun

theorem Within.bind {x : Action α} {f : α → Action β} (hx : x.Within b)
    (hf : ∀ a, (f a).Within b) : (x >>= f).Within b := by
  intro h
  have hfirst := hx h
  cases hrun : x h with
  | error e h₁ =>
    rw [after_of_error hrun] at hfirst
    rw [after_bind_of_error hrun]
    exact hfirst
  | ok a h₁ =>
    rw [after_of_ok hrun] at hfirst
    rw [after_bind_of_ok hrun]
    exact b.trans hfirst (hf a h₁)

theorem after_catching (caught : Failure → Bool) (x : Action α) (h : Host) :
    (catching caught x).after h = x.after h := by
  cases hx : x h with
  | ok a h₁ => rw [after_of_ok hx, after_of_ok (catching_of_ok hx)]
  | error e h₁ =>
    rw [after_of_error hx]
    cases he : caught e with
    | true => exact after_of_ok (catching_of_error hx he)
    | false => exact after_of_error (catching_of_uncaught hx he)

/-- Catching failures undoes nothing of what was done before them. -/
theorem Within.catching {x : Action α} (hx : x.Within b) (caught : Failure → Bool) :
    (catching caught x).Within b := by
  intro h
  rw [after_catching]
  exact hx h

end Action
end SourceDrift
