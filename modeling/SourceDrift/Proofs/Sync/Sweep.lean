/-
The loop rule of a recording.

A recording is one walk over all elements of all findings, which threads a cache and counts the
digests that it writes. What it does to one element depends on the cache at that point, so that
each fact about it takes an invariant of the cache. The rule is proved once: what one element
keeps and is turned into, the whole walk keeps and turns the findings into, and the counts add up.
-/
import Mathlib.Data.List.Forall2
import SourceDrift.Store.Basic

set_option autoImplicit false

namespace SourceDrift.Sync

/-! ## Lists that are turned into others, with a count -/

/-- Whether the entries of a list are turned into those of another, each with a count, and the
counts sum up to a number. -/
inductive Swept {α β : Type} (r : α → β → Nat → Prop) : List α → List β → Nat → Prop where
  | nil : Swept r [] [] 0
  | cons {x : α} {y : β} {n : Nat} {xs : List α} {ys : List β} {k : Nat} :
      r x y n → Swept r xs ys k → Swept r (x :: xs) (y :: ys) (n + k)

namespace Swept

variable {α β γ : Type} {r : α → β → Nat → Prop} {xs : List α} {ys : List β} {n : Nat}

theorem forall₂ (h : Swept r xs ys n) : List.Forall₂ (fun x y => ∃ k, r x y k) xs ys := by
  induction h with
  | nil => exact .nil
  | cons hxy _ ih => exact .cons ⟨_, hxy⟩ ih

theorem imp {s : α → β → Nat → Prop} (h : Swept r xs ys n)
    (hrs : ∀ x ∈ xs, ∀ y k, r x y k → s x y k) : Swept s xs ys n := by
  induction h with
  | nil => exact .nil
  | cons hxy _ ih =>
    rw [List.forall_mem_cons] at hrs
    exact .cons (hrs.1 _ _ hxy) (ih hrs.2)

/-- Entries that count how many of their parts pass a test count together how many of all parts
pass it. -/
theorem eq_countP {parts : α → List γ} {p : γ → Bool} (h : Swept r xs ys n)
    (hcount : ∀ x ∈ xs, ∀ y k, r x y k → k = (parts x).countP p) :
    n = (xs.flatMap parts).countP p := by
  induction h with
  | nil => rfl
  | cons hxy _ ih =>
    rw [List.forall_mem_cons] at hcount
    rw [List.flatMap_cons, List.countP_append, hcount.1 _ _ hxy, ih hcount.2]

/-- If each entry stays what it is and counts nothing, so does the list. -/
theorem eq_self {ys : List α} (h : Swept (fun x y k => y = x ∧ k = 0) xs ys n) :
    ys = xs ∧ n = 0 := by
  induction h with
  | nil => exact ⟨rfl, rfl⟩
  | cons hxy _ ih =>
    obtain ⟨rfl, rfl⟩ := hxy
    obtain ⟨rfl, rfl⟩ := ih
    exact ⟨rfl, rfl⟩

end Swept

/-- Whether the elements of a finding are turned into those of another, and nothing else of it is
changed. -/
def SweptFinding (r : Element → Element → Nat → Prop) (f g : Finding) (n : Nat) : Prop :=
  (f.elements? = none ∧ g = f ∧ n = 0) ∨
    ∃ es es', f.elements? = some es ∧ g = { f with elements? := some es' } ∧ Swept r es es' n

theorem SweptFinding.eq_self {f g : Finding} {n : Nat}
    (h : SweptFinding (fun e e' k => e' = e ∧ k = 0) f g n) : g = f ∧ n = 0 := by
  rcases h with ⟨-, rfl, rfl⟩ | ⟨es, es', hes, rfl, hall⟩
  · exact ⟨rfl, rfl⟩
  · obtain ⟨rfl, rfl⟩ := hall.eq_self
    exact ⟨by rw [← hes], rfl⟩

/-! ## The rule -/

section

variable {src : Sources} {root : Path} {onlyMissing : Bool} {inv : Cache → Prop}
  {r : Element → Element → Nat → Prop}

variable (src root onlyMissing inv r) in
/-- What one element has to do: keep the invariant, and be turned into what is asked for. -/
def Step (e : Element) : Prop :=
  ∀ cache, inv cache → ∃ e' count after,
    captureElement src root onlyMissing cache e = (e', count, after) ∧ inv after ∧ r e e' count

theorem captureElements_swept {es : List Element}
    (hes : ∀ e ∈ es, Step src root onlyMissing inv r e) :
    ∀ {cache : Cache}, inv cache → ∃ es' count after,
      captureElements src root onlyMissing cache es = (es', count, after) ∧ inv after ∧
        Swept r es es' count := by
  -- Each element leaves a cache to the next; all that is known of it is the invariant.
  induction es with
  | nil => exact fun hcache => ⟨[], 0, _, rfl, hcache, .nil⟩
  | cons e rest ih =>
    intro cache hcache
    rw [List.forall_mem_cons] at hes
    obtain ⟨e', count, after, heq, hafter, he⟩ := hes.1 cache hcache
    obtain ⟨rest', more, last, hrest, hlast, hall⟩ := ih hes.2 hafter
    refine ⟨e' :: rest', count + more, last, ?_, hlast, .cons he hall⟩
    rw [captureElements, heq]
    simp only [hrest]

theorem captureFinding_swept {f : Finding}
    (hf : ∀ e ∈ f.elements, Step src root onlyMissing inv r e)
    {cache : Cache} (hcache : inv cache) : ∃ g count after,
      captureFinding src root onlyMissing cache f = (g, count, after) ∧ inv after ∧
        SweptFinding r f g count := by
  unfold captureFinding
  rw [Finding.elements] at hf
  cases hgiven : f.elements? with
  | none => exact ⟨f, 0, cache, rfl, hcache, .inl ⟨hgiven, rfl, rfl⟩⟩
  | some es =>
    rw [hgiven, Option.getD_some] at hf
    obtain ⟨es', count, after, heq, hafter, hall⟩ := captureElements_swept hf hcache
    exact ⟨_, count, after, by simp only [heq], hafter, .inr ⟨es, es', hgiven, rfl, hall⟩⟩

theorem captureFindings_swept {fs : List Finding}
    (hfs : ∀ f ∈ fs, ∀ e ∈ f.elements, Step src root onlyMissing inv r e) :
    ∀ {cache : Cache}, inv cache → ∃ gs count after,
      captureFindings src root onlyMissing cache fs = (gs, count, after) ∧
        Swept (SweptFinding r) fs gs count := by
  induction fs with
  | nil => exact fun _ => ⟨[], 0, _, rfl, .nil⟩
  | cons f rest ih =>
    intro cache hcache
    rw [List.forall_mem_cons] at hfs
    obtain ⟨g, count, after, heq, hafter, hf⟩ := captureFinding_swept hfs.1 hcache
    obtain ⟨gs, more, last, hrest, hall⟩ := ih hfs.2 hafter
    refine ⟨g :: gs, count + more, last, ?_, .cons hf hall⟩
    rw [captureFindings, heq]
    simp only [hrest]

/-- **What each element keeps and is turned into, a recording turns the findings into.** The cache
is empty at the start. -/
theorem capture_swept (fs : List Finding) (hempty : inv [])
    (hfs : ∀ f ∈ fs, ∀ e ∈ f.elements, Step src root onlyMissing inv r e) :
    Swept (SweptFinding r) fs (capture src root onlyMissing fs).1
      (capture src root onlyMissing fs).2 := by
  obtain ⟨gs, count, after, heq, hall⟩ := captureFindings_swept hfs hempty
  rw [capture, heq]
  exact hall

end

end SourceDrift.Sync
