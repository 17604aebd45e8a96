/-
What sanitizing leaves.

A description is sanitized in one pass: every reference is cut out where it stands, and then every
carriage return before a line feed. What is on both sides of a cut comes together, and so does what
is on both sides of a carriage return. So a reference may be left, but its ending runs across a cut;
and a carriage return may be left before a line feed, but only where there were two. What is left is
taken out when the text is sanitized again, which makes it shorter, until there is nothing to take.
-/
import Mathlib.Logic.Function.Iterate
import SourceDrift.Finding.Description
import SourceDrift.Proofs.Finding.Reference

set_option autoImplicit false

namespace SourceDrift.Description

open Reference

variable {c : Char} {cs u r before after : List Char}

/-! ## Line ends -/

/-- Whether there is a carriage return before a line feed anywhere in a text. -/
def HasCrlf (cs : List Char) : Prop := ['\r', '\n'] <:+: cs

theorem not_hasCrlf_nil : ¬HasCrlf [] := by
  intro hpart
  cases List.infix_nil.1 hpart

/-- A character is kept, unless it is the carriage return of a line end. -/
theorem joinLineEnds_cons (h : ∀ rest, c = '\r' → cs ≠ '\n' :: rest) :
    joinLineEnds (c :: cs) = c :: joinLineEnds cs := by
  rw [joinLineEnds]
  exact h

/-- What a character that is left has been: itself, or a line end that it ends. -/
theorem joinLineEnds_eq_cons (h : joinLineEnds u = c :: cs) :
    ∃ rest, joinLineEnds rest = cs ∧
      ((u = c :: rest ∧ ∀ more, c = '\r' → rest ≠ '\n' :: more) ∨
        c = '\n' ∧ u = '\r' :: '\n' :: rest) := by
  cases u using joinLineEnds.fun_cases with
  | case1 => cases h
  | case2 rest =>
    rw [joinLineEnds] at h
    cases h
    exact ⟨rest, rfl, .inr ⟨rfl, rfl⟩⟩
  | case3 d rest hother =>
    rw [joinLineEnds_cons hother] at h
    cases h
    exact ⟨rest, rfl, .inl ⟨rfl, hother⟩⟩

theorem hasCrlf_cons (h : ∀ rest, c = '\r' → cs ≠ '\n' :: rest) : HasCrlf (c :: cs) ↔
    HasCrlf cs := by
  constructor
  · intro hpart
    rcases List.infix_cons_iff.1 hpart with ⟨rest, hstart⟩ | hpart
    · cases hstart
      exact absurd rfl (h _ rfl)
    · exact hpart
  · exact List.infix_cons

/-- **Nothing is taken from a text whose line ends are single characters**, and any other becomes
shorter. -/
theorem joinLineEnds_cases (cs : List Char) :
    ¬HasCrlf cs ∧ joinLineEnds cs = cs ∨ HasCrlf cs ∧ (joinLineEnds cs).length < cs.length := by
  induction cs using joinLineEnds.induct with
  | case1 => exact .inl ⟨not_hasCrlf_nil, rfl⟩
  | case2 rest ih =>
    refine .inr ⟨⟨[], rest, rfl⟩, ?_⟩
    have hle : (joinLineEnds rest).length ≤ rest.length := by
      rcases ih with ⟨-, heq⟩ | ⟨-, hlt⟩
      · exact Nat.le_of_eq (congrArg List.length heq)
      · exact Nat.le_of_lt hlt
    rw [joinLineEnds]
    simp only [List.length_cons]
    omega
  | case3 c rest hother ih =>
    have hsingle : ∀ more, c = '\r' → rest ≠ '\n' :: more := hother
    rw [hasCrlf_cons hsingle, joinLineEnds_cons hsingle]
    rcases ih with ⟨hnone, heq⟩ | ⟨hsome, hlt⟩
    · exact .inl ⟨hnone, congrArg (c :: ·) heq⟩
    · exact .inr ⟨hsome, Nat.succ_lt_succ hlt⟩

/-- **A line end is left of two carriage returns.** -/
theorem hasCrlf_joinLineEnds : HasCrlf (joinLineEnds cs) ↔ ['\r', '\r', '\n'] <:+: cs := by
  -- By the way the text is read: a line end at a time, or a character that begins none.
  induction cs using joinLineEnds.induct with
  | case1 =>
    constructor
    · exact fun hpart => absurd hpart not_hasCrlf_nil
    · intro hpart
      cases List.infix_nil.1 hpart
  | case2 rest ih =>
    rw [joinLineEnds, hasCrlf_cons (by rintro _ ⟨⟩), ih]
    constructor
    · exact fun hpart => List.infix_cons (List.infix_cons hpart)
    · intro hpart
      rcases List.infix_cons_iff.1 hpart with ⟨_, hstart⟩ | hpart
      · cases hstart
      · rcases List.infix_cons_iff.1 hpart with ⟨_, hstart⟩ | hpart
        · cases hstart
        · exact hpart
  | case3 c rest hother ih =>
    have hsingle : ∀ more, c = '\r' → rest ≠ '\n' :: more := hother
    rw [joinLineEnds_cons hsingle]
    constructor
    · intro hpart
      rcases List.infix_cons_iff.1 hpart with ⟨more, hstart⟩ | hpart
      · -- The carriage return was none of a line end, so the line feed is what is left of another.
        obtain ⟨rfl, hrest⟩ : '\r' = c ∧ '\n' :: more = joinLineEnds rest := List.cons.inj hstart
        obtain ⟨rest', -, ⟨rfl, -⟩ | ⟨-, rfl⟩⟩ := joinLineEnds_eq_cons hrest.symm
        · exact absurd rfl (hsingle _ rfl)
        · exact ⟨[], rest', rfl⟩
      · exact List.infix_cons (ih.1 hpart)
    · intro hpart
      rcases List.infix_cons_iff.1 hpart with ⟨more, hstart⟩ | hpart
      · cases hstart
        exact ⟨[], joinLineEnds more, rfl⟩
      · exact List.infix_cons (ih.2 hpart)

/-- What begins with characters that are no blanks began with them before. -/
theorem joinLineEnds_eq_unbroken (hr : Unbroken r) (h : joinLineEnds u = r ++ after) :
    ∃ after', u = r ++ after' ∧ joinLineEnds after' = after := by
  induction r generalizing u with
  | nil => exact ⟨u, rfl, h⟩
  | cons d r ih =>
    obtain ⟨hd, hr⟩ := unbroken_cons.1 hr
    obtain ⟨rest, hrest, ⟨rfl, -⟩ | ⟨rfl, -⟩⟩ := joinLineEnds_eq_cons h
    · obtain ⟨after', rfl, hafter⟩ := ih hr hrest
      exact ⟨after', rfl, hafter⟩
    · cases hd

/-- **A stretch without blanks stood in the text before its line ends were joined.** -/
theorem joinLineEnds_eq_append (hr : Unbroken r)
    (h : joinLineEnds u = before ++ (r ++ after)) :
    ∃ before' after', u = before' ++ (r ++ after') ∧ joinLineEnds before' = before ∧
      joinLineEnds after' = after := by
  induction before generalizing u with
  | nil =>
    obtain ⟨after', rfl, hafter⟩ := joinLineEnds_eq_unbroken hr h
    exact ⟨[], after', rfl, rfl, hafter⟩
  | cons b before ih =>
    obtain ⟨rest, hrest, ⟨rfl, hsingle⟩ | ⟨rfl, rfl⟩⟩ := joinLineEnds_eq_cons h
    · obtain ⟨before', after', rfl, hbefore, hafter⟩ := ih hrest
      have hsingle' : ∀ more, b = '\r' → before' ≠ '\n' :: more := by
        rintro more rfl rfl
        exact absurd rfl (hsingle _ rfl)
      exact ⟨b :: before', after', rfl, by rw [joinLineEnds_cons hsingle', hbefore], hafter⟩
    · obtain ⟨before', after', rfl, hbefore, hafter⟩ := ih hrest
      exact ⟨'\r' :: '\n' :: before', after', rfl, by rw [joinLineEnds, hbefore], hafter⟩

/-! ## Sanitizing -/

/-- Whether there is nothing in a text that sanitizing takes out. -/
def Clean (cs : List Char) : Prop := ¬HasReference cs ∧ ¬HasCrlf cs

/-- **A clean text stays as it is**, and any other becomes shorter. -/
theorem sanitizeChars_cases (cs : List Char) :
    Clean cs ∧ sanitizeChars cs = cs ∨ ¬Clean cs ∧ (sanitizeChars cs).length < cs.length := by
  unfold sanitizeChars
  rcases removeReferences_cases cs with ⟨hnone, heq⟩ | ⟨hsome, hlt⟩
  · rw [heq]
    rcases joinLineEnds_cases cs with ⟨hnone', heq'⟩ | ⟨hsome', hlt'⟩
    · exact .inl ⟨⟨hnone, hnone'⟩, heq'⟩
    · exact .inr ⟨fun hclean => hclean.2 hsome', hlt'⟩
  · refine .inr ⟨fun hclean => hclean.1 hsome, ?_⟩
    rcases joinLineEnds_cases (removeReferences cs) with ⟨-, heq'⟩ | ⟨-, hlt'⟩
    · rwa [heq']
    · exact Nat.lt_trans hlt' hlt

theorem sanitizeChars_eq_self : sanitizeChars cs = cs ↔ Clean cs := by
  rcases sanitizeChars_cases cs with ⟨hclean, heq⟩ | ⟨hunclean, hlt⟩
  · exact ⟨fun _ => hclean, fun _ => heq⟩
  · exact ⟨fun heq => absurd (congrArg List.length heq) (Nat.ne_of_lt hlt),
      fun h => absurd h hunclean⟩

/-- **Sanitizing often enough takes out everything.** -/
theorem clean_iterate {n : Nat} (hn : cs.length ≤ n) : Clean (sanitizeChars^[n] cs) := by
  induction n generalizing cs with
  | zero =>
    obtain rfl := List.eq_nil_of_length_eq_zero (Nat.le_zero.1 hn)
    exact sanitizeChars_eq_self.1 (by simp [sanitizeChars, removeReferences, joinLineEnds])
  | succ n ih =>
    rw [Function.iterate_succ_apply]
    rcases sanitizeChars_cases cs with ⟨hclean, heq⟩ | ⟨-, hlt⟩
    · rw [heq, Function.iterate_fixed heq]
      exact hclean
    · exact ih (Nat.le_of_lt_succ (Nat.lt_of_lt_of_le hlt hn))

theorem toList_sanitize (s : String) : (sanitize s).toList = sanitizeChars s.toList :=
  String.toList_ofList

theorem toList_iterate_sanitize (n : Nat) (s : String) :
    (sanitize^[n] s).toList = sanitizeChars^[n] s.toList := by
  induction n generalizing s with
  | zero => rfl
  | succ n ih => rw [Function.iterate_succ_apply, Function.iterate_succ_apply, ih, toList_sanitize]

theorem sanitize_eq_self {s : String} : sanitize s = s ↔ Clean s.toList := by
  rw [← sanitizeChars_eq_self, ← toList_sanitize, String.toList_inj]

/-- **What sanitizing leaves.** The text is cut into pieces that have no references, and the pieces
are joined. A reference that is left in the sanitized text has its ending on both sides of a cut,
and a carriage return is left before a line feed where there were two of them. The sanitized text
stays as it is if there is neither in it; and neither is left if a text is sanitized as many times
as it has characters. -/
theorem sanitized_but_across_cuts (description : String) :
    ∃ first cuts, IsCut description.toList first cuts ∧
      (sanitize description).toList = joinLineEnds (joined first cuts) ∧
      (∀ before name ending after, Unbroken name → IsEnding ending →
        (sanitize description).toList = before ++ '(' :: (name ++ (ending ++ after)) →
          ∃ before' after', joinLineEnds before' = before ∧ joinLineEnds after' = after ∧
            Across first cuts (before' ++ '(' :: name) ending after') ∧
      (HasCrlf (sanitize description).toList ↔ ['\r', '\r', '\n'] <:+: joined first cuts) ∧
      (sanitize (sanitize description) = sanitize description ↔
        Clean (sanitize description).toList) ∧
      ∀ n, description.length ≤ n → Clean (sanitize^[n] description).toList := by
  obtain ⟨first, cuts, hcut, hresult, hacross⟩ := exists_cut description.toList
  have hsanitized : (sanitize description).toList = joinLineEnds (joined first cuts) := by
    rw [toList_sanitize, sanitizeChars, hresult]
  refine ⟨first, cuts, hcut, hsanitized, ?_, ?_, sanitize_eq_self, ?_⟩
  · intro before name ending after hname hending heq
    -- A reference has no blank in it, so that joining line ends has not touched it.
    have hreference : Unbroken ('(' :: (name ++ ending)) :=
      (IsReference.intro hname hending).unbroken
    rw [hsanitized, ← List.append_assoc name, ← List.cons_append] at heq
    obtain ⟨before', after', hjoined, hbefore, hafter⟩ :=
      joinLineEnds_eq_append hreference heq
    rw [List.cons_append, List.append_assoc] at hjoined
    exact ⟨before', after', hbefore, hafter, hacross _ _ _ _ hname hending hjoined⟩
  · rw [hsanitized]
    exact hasCrlf_joinLineEnds
  · intro n hn
    rw [toList_iterate_sanitize]
    exact clean_iterate hn

/-- Around a reference the parts of another come together, and of two carriage returns before a line
feed one is left. Neither text is clean when it has been sanitized, and both change again. -/
theorem sanitized_again_changes :
    let nested := "(a.so (b.sol)l)"
    let doubled := "\r\r\n"
    (sanitize nested = "(a.sol)" ∧ HasReference (sanitize nested).toList ∧
        sanitize (sanitize nested) = "") ∧
      (sanitize doubled = "\r\n" ∧ HasCrlf (sanitize doubled).toList ∧
        sanitize (sanitize doubled) = "\n") ∧
      ¬∀ description : String, sanitize (sanitize description) = sanitize description ∧
        ¬HasReference (sanitize description).toList ∧ ¬HasCrlf (sanitize description).toList := by
  intro nested doubled
  have hnested : sanitize nested = "(a.sol)" := by decide +kernel
  have hdoubled : sanitize doubled = "\r\n" := by decide +kernel
  -- The inner reference is gone, and what was around it has become one.
  have hreference : HasReference (sanitize nested).toList := by
    rw [hnested]
    have hname : Unbroken ['a'] := unbroken_cons.2 ⟨by decide, unbroken_nil⟩
    have hending : IsEnding ['.', 's', 'o', 'l', ')'] :=
      .intro (by decide) (by decide) (by decide) .nowhere
    exact ⟨_, .intro hname hending, List.infix_rfl⟩
  have hcrlf : HasCrlf (sanitize doubled).toList := by
    rw [hdoubled]
    exact List.infix_rfl
  refine ⟨⟨hnested, hreference, ?_⟩, ⟨hdoubled, hcrlf, ?_⟩,
    fun hall => (hall nested).2.1 hreference⟩
  · rw [hnested]
    decide +kernel
  · rw [hdoubled]
    decide +kernel

end SourceDrift.Description
