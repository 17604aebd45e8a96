/-
What references are, and what is left of a text when they are cut out.

The reader of references looks for the last place where a name can end. So it answers the longest
reference, and behind what it has read no name ends before the next blank. This is what the rest
stands on. A text is scanned once, from the front, and cut into pieces that are kept and matches
between them that are removed. No piece has a reference of its own. The pieces are joined, though,
and one may stand in the joined text: its ending then runs across a cut. An ending that begins
behind a cut would have been part of what was removed there.
-/
import SourceDrift.Finding.Reference

set_option autoImplicit false

namespace SourceDrift.Reference

variable {cs ds name ending rest more before after t first r : List Char} {c : Char}
  {cuts : List (List Char × List Char)}

/-! ## The grammar -/

/-- Whether a text is a number. -/
def IsNumber (ds : List Char) : Prop := ds ≠ [] ∧ ∀ d ∈ ds, Text.isDecimalDigit d = true

/-- Whether a text says a line, a range of lines, or nothing. -/
inductive IsLines : List Char → Prop
  | nowhere : IsLines []
  | line {ds : List Char} : IsNumber ds → IsLines ('#' :: ds)
  | range {ds es : List Char} : IsNumber ds → IsNumber es → IsLines ('#' :: (ds ++ '-' :: es))

/-- Whether a text is the end of a reference, from the dot of the file name. -/
inductive IsEnding : List Char → Prop
  | intro {s o l : Char} {lines : List Char} : isLetter 's' s = true → isLetter 'o' o = true →
      isLetter 'l' l = true → IsLines lines → IsEnding ('.' :: s :: o :: l :: (lines ++ [')']))

/-- Whether a text has no blanks. -/
def Unbroken (cs : List Char) : Prop := ∀ c ∈ cs, Text.isBlank c = false

/-- Whether a text is a reference. -/
inductive IsReference : List Char → Prop
  | intro {name ending : List Char} : Unbroken name → IsEnding ending →
      IsReference ('(' :: (name ++ ending))

/-- Whether a text is what is removed: a reference, with a blank before it or without. -/
inductive IsMatch : List Char → Prop
  | bare {r : List Char} : IsReference r → IsMatch r
  | spaced {c : Char} {r : List Char} : Text.isBlank c = true → IsReference r → IsMatch (c :: r)

/-- Whether there is a reference anywhere in a text. -/
def HasReference (cs : List Char) : Prop := ∃ r, IsReference r ∧ r <:+: cs

/-! ## Blanks -/

/-- The blanks, as ranges of code points. -/
def blankRanges : List (Nat × Nat) :=
  [(9, 13), (0x1C, 0x20), (0x85, 0x85), (0xA0, 0xA0), (0x1680, 0x1680), (0x2000, 0x200A),
    (0x2028, 0x2029), (0x202F, 0x202F), (0x205F, 0x205F), (0x3000, 0x3000)]

theorem inRanges_of_isBlank (hc : Text.isBlank c = true) :
    Text.inRanges blankRanges c.toNat = true := by
  simp only [Text.isBlank, Text.isWhite, Bool.or_eq_true, Bool.and_eq_true, decide_eq_true_eq,
    beq_iff_eq] at hc
  simp only [Text.inRanges, blankRanges, List.any_cons, List.any_nil, Bool.or_eq_true,
    Bool.and_eq_true, decide_eq_true_eq, Bool.or_false]
  omega

/-- A table that has no code point in common with the blanks has none of them. -/
theorem isBlank_of_inRanges {ranges : List (Nat × Nat)}
    (hapart : ∀ b ∈ blankRanges, ∀ d ∈ ranges, b.2 < d.1 ∨ d.2 < b.1)
    (hc : Text.inRanges ranges c.toNat = true) : Text.isBlank c = false := by
  rw [Bool.eq_false_iff]
  intro hblank
  have hinside := inRanges_of_isBlank hblank
  simp only [Text.inRanges, List.any_eq_true, Bool.and_eq_true, decide_eq_true_eq] at hc hinside
  obtain ⟨d, hd, hlow, hhigh⟩ := hc
  obtain ⟨b, hb, hlow', hhigh'⟩ := hinside
  have := hapart b hb d hd
  omega

theorem isBlank_of_isDecimalDigit (hc : Text.isDecimalDigit c = true) : Text.isBlank c = false :=
  isBlank_of_inRanges (by decide) hc

/-- A character is a letter of the suffix in one case or the other, or the long s. -/
theorem isLetter_iff {letter : Char} (hletter : letter ∈ ['s', 'o', 'l']) :
    isLetter letter c = true ↔ c = letter ∨ c = letter.toUpper ∨ letter = 's' ∧ c = '\u017F' := by
  -- What is below the small letters is looked through; the rest is no capital and stays as it is.
  have hcapital : ∀ n < 'a'.toNat, (Char.ofNat n).toLower = letter →
      Char.ofNat n = letter.toUpper := by
    simp only [List.mem_cons, List.not_mem_nil, or_false] at hletter
    rcases hletter with rfl | rfl | rfl <;> decide
  have hlower : letter.toUpper.toLower = letter := by
    simp only [List.mem_cons, List.not_mem_nil, or_false] at hletter
    rcases hletter with rfl | rfl | rfl <;> decide
  simp only [isLetter, Bool.or_eq_true, Bool.and_eq_true, beq_iff_eq, or_assoc]
  constructor
  · rintro (hc | hc | hc)
    · exact .inl hc
    · by_cases hsmall : c.toNat < 'a'.toNat
      · have hupper := hcapital c.toNat hsmall
        rw [Char.ofNat_toNat] at hupper
        exact .inr (.inl (hupper hc))
      · have hsame : c.toLower = c :=
          dif_neg fun hrange => hsmall (Nat.lt_of_le_of_lt hrange.2 (by decide))
        exact .inl (hsame.symm.trans hc)
    · exact .inr (.inr hc)
  · rintro (hc | rfl | hc)
    · exact .inl hc
    · exact .inr (.inl hlower)
    · exact .inr (.inr hc)

theorem isBlank_of_isLetter {letter : Char} (hletter : letter ∈ ['s', 'o', 'l'])
    (hc : isLetter letter c = true) : Text.isBlank c = false := by
  have hcase := (isLetter_iff hletter).1 hc
  simp only [List.mem_cons, List.not_mem_nil, or_false] at hletter
  rcases hletter with rfl | rfl | rfl <;> rcases hcase with rfl | rfl | ⟨-, rfl⟩ <;> decide

theorem unbroken_nil : Unbroken [] := fun _ hmem => absurd hmem List.not_mem_nil

theorem unbroken_append : Unbroken (cs ++ ds) ↔ Unbroken cs ∧ Unbroken ds := List.forall_mem_append

theorem unbroken_cons : Unbroken (c :: cs) ↔ Text.isBlank c = false ∧ Unbroken cs :=
  List.forall_mem_cons

theorem IsNumber.unbroken (h : IsNumber ds) : Unbroken ds :=
  fun d hd => isBlank_of_isDecimalDigit (h.2 d hd)

theorem IsLines.unbroken (h : IsLines cs) : Unbroken cs := by
  cases h with
  | nowhere => exact unbroken_nil
  | line hds => exact unbroken_cons.2 ⟨by decide, hds.unbroken⟩
  | range hds hes =>
    exact unbroken_cons.2 ⟨by decide, unbroken_append.2 ⟨hds.unbroken,
      unbroken_cons.2 ⟨by decide, hes.unbroken⟩⟩⟩

theorem IsEnding.unbroken (h : IsEnding cs) : Unbroken cs := by
  obtain ⟨hs, ho, hl, hlines⟩ := h
  refine unbroken_cons.2 ⟨by decide, unbroken_cons.2 ⟨isBlank_of_isLetter (by decide) hs,
    unbroken_cons.2 ⟨isBlank_of_isLetter (by decide) ho,
      unbroken_cons.2 ⟨isBlank_of_isLetter (by decide) hl,
        unbroken_append.2 ⟨hlines.unbroken, ?_⟩⟩⟩⟩⟩
  exact unbroken_cons.2 ⟨by decide, unbroken_nil⟩

theorem IsReference.unbroken (h : IsReference r) : Unbroken r := by
  obtain ⟨hname, hending⟩ := h
  exact unbroken_cons.2 ⟨by decide, unbroken_append.2 ⟨hname, hending.unbroken⟩⟩

/-! ## Reading -/

theorem afterDigits?_append (hds : IsNumber ds) (hc : Text.isDecimalDigit c = false) :
    afterDigits? (ds ++ c :: rest) = some (c :: rest) := by
  obtain ⟨hne, hdigits⟩ := hds
  cases ds with
  | nil => exact absurd rfl hne
  | cons d ds =>
    obtain ⟨hd, hdigits⟩ := List.forall_mem_cons.1 hdigits
    rw [List.cons_append, afterDigits?, if_pos hd, List.dropWhile_append_of_pos hdigits,
      List.dropWhile_cons_of_neg (by rw [hc]; decide)]

theorem afterDigits?_eq_some (h : afterDigits? cs = some rest) :
    ∃ ds, IsNumber ds ∧ cs = ds ++ rest := by
  cases cs with
  | nil => cases h
  | cons c cs =>
    rw [afterDigits?] at h
    split at h
    · next hc =>
      cases h
      refine ⟨c :: cs.takeWhile Text.isDecimalDigit, ⟨List.cons_ne_nil _ _, ?_⟩, ?_⟩
      · exact List.forall_mem_cons.2 ⟨hc, List.all_eq_true.1 List.all_takeWhile⟩
      · rw [List.cons_append, List.takeWhile_append_dropWhile]
    · cases h

theorem afterLines?_append (h : IsLines cs) :
    afterLines? (cs ++ ')' :: rest) = some (')' :: rest) := by
  cases h with
  | nowhere => rfl
  | line hds =>
    rw [List.cons_append, afterLines?, afterDigits?_append hds (by decide)]
    rfl
  | range hds hes =>
    rw [List.cons_append, List.append_assoc, List.cons_append, afterLines?,
      afterDigits?_append hds (by decide)]
    exact afterDigits?_append hes (by decide)

theorem afterLines?_eq_some (h : afterLines? cs = some (')' :: rest)) :
    ∃ lines, IsLines lines ∧ cs = lines ++ ')' :: rest := by
  unfold afterLines? at h
  split at h
  · next tail =>
    split at h
    · next more hfirst =>
      obtain ⟨ds, hds, rfl⟩ := afterDigits?_eq_some hfirst
      obtain ⟨es, hes, rfl⟩ := afterDigits?_eq_some h
      exact ⟨_, .range hds hes, by simp⟩
    · obtain ⟨ds, hds, rfl⟩ := afterDigits?_eq_some h
      exact ⟨_, .line hds, rfl⟩
  · cases h
    exact ⟨[], .nowhere, rfl⟩

/-- **The end of a reference is read exactly.** -/
theorem afterSuffix?_eq_some :
    afterSuffix? cs = some rest ↔ ∃ ending, IsEnding ending ∧ cs = ending ++ rest := by
  constructor
  · intro h
    unfold afterSuffix? at h
    split at h
    · next p s o l tail =>
      split at h
      · next hletters =>
        obtain ⟨rfl, hs, ho, hl⟩ := hletters
        split at h
        · next more hlines =>
          cases h
          obtain ⟨_, hread, rfl⟩ := afterLines?_eq_some hlines
          exact ⟨_, .intro hs ho hl hread, by simp⟩
        · cases h
      · cases h
    · cases h
  · rintro ⟨_, ⟨hs, ho, hl, hlines⟩, rfl⟩
    simp only [List.cons_append, List.append_assoc, List.nil_append, afterSuffix?]
    rw [if_pos ⟨trivial, hs, ho, hl⟩, afterLines?_append hlines]
    rfl

theorem afterReference?_of_unbroken (hname : Unbroken name)
    (h : afterReference? cs = some rest) : afterReference? (name ++ cs) = some rest := by
  induction name with
  | nil => exact h
  | cons c name ih =>
    obtain ⟨hc, hname⟩ := unbroken_cons.1 hname
    rw [List.cons_append, afterReference?, if_neg (by rw [hc]; decide), ih hname]

theorem exists_afterReference? (hending : IsEnding ending) (rest : List Char) :
    ∃ found, afterReference? (ending ++ rest) = some found := by
  have hsuffix : afterSuffix? (ending ++ rest) = some rest :=
    afterSuffix?_eq_some.2 ⟨ending, hending, rfl⟩
  have hunbroken := hending.unbroken
  cases ending with
  | nil => cases hending
  | cons c ending =>
    obtain ⟨hc, -⟩ := unbroken_cons.1 hunbroken
    rw [List.cons_append, afterReference?, if_neg (by rw [hc]; decide)]
    cases afterReference? (ending ++ rest) with
    | some found => exact ⟨found, rfl⟩
    | none => exact ⟨rest, hsuffix⟩

/-- **No reference is missed.** -/
theorem not_reference_of_none (h : afterReference? cs = none) (hname : Unbroken name)
    (hending : IsEnding ending) : cs ≠ name ++ (ending ++ rest) := by
  rintro rfl
  obtain ⟨found, hfound⟩ := exists_afterReference? hending rest
  rw [afterReference?_of_unbroken hname hfound] at h
  cases h

/-- **What is read is a reference, and there is no other behind it before the next blank.** -/
theorem afterReference?_eq_some (h : afterReference? cs = some rest) :
    ∃ name ending, Unbroken name ∧ IsEnding ending ∧ cs = name ++ (ending ++ rest) ∧
      afterReference? rest = none := by
  induction cs with
  | nil => cases h
  | cons c cs ih =>
    rw [afterReference?] at h
    split at h
    · cases h
    · next hc =>
      have hc := Bool.eq_false_iff.2 hc
      cases hlater : afterReference? cs with
      | some found =>
        rw [hlater] at h
        cases h
        obtain ⟨name, ending, hname, hending, rfl, hlast⟩ := ih hlater
        exact ⟨c :: name, ending, unbroken_cons.2 ⟨hc, hname⟩, hending, rfl, hlast⟩
      | none =>
        rw [hlater] at h
        obtain ⟨ending, hending, heq⟩ := afterSuffix?_eq_some.1 h
        refine ⟨[], ending, unbroken_nil, hending, heq, ?_⟩
        -- All of the ending but its dot stands before what is left, and has no blank.
        have hunbroken := hending.unbroken
        cases ending with
        | nil => cases hending
        | cons d ending =>
          obtain ⟨rfl, rfl⟩ : c = d ∧ cs = ending ++ rest := List.cons.inj heq
          cases hrest : afterReference? rest with
          | none => rfl
          | some found =>
            rw [afterReference?_of_unbroken (unbroken_cons.1 hunbroken).2 hrest] at hlater
            cases hlater

/-- What is removed at the start of a text is a match, and what is left is not the rest of a
longer one. -/
theorem afterMatch?_eq_some (h : afterMatch? cs = some rest) :
    ∃ found, IsMatch found ∧ cs = found ++ rest ∧ afterReference? rest = none := by
  unfold afterMatch? at h
  split at h
  · cases h
  · next c tail =>
    split at h
    · next hopen =>
      obtain ⟨name, ending, hname, hending, rfl, hlast⟩ := afterReference?_eq_some h
      exact ⟨_, .bare (.intro hname hending), by simp [hopen], hlast⟩
    · split at h
      · next hblank =>
        split at h
        · next more =>
          obtain ⟨name, ending, hname, hending, rfl, hlast⟩ := afterReference?_eq_some h
          exact ⟨_, .spaced hblank (.intro hname hending), by simp, hlast⟩
        · cases h
      · cases h

theorem afterReference?_of_afterMatch? (h : afterMatch? ('(' :: cs) = none) :
    afterReference? cs = none := by
  unfold afterMatch? at h
  dsimp only at h
  rwa [if_pos (Eq.refl '(')] at h

theorem removeReferences_of_some (h : afterMatch? (c :: cs) = some rest) :
    removeReferences (c :: cs) = removeReferences rest := by
  rw [removeReferences.eq_def]
  dsimp only
  split
  · next hsome =>
    rw [h] at hsome
    cases hsome
    rfl
  · next hnone =>
    rw [h] at hnone
    cases hnone

theorem removeReferences_of_none (h : afterMatch? (c :: cs) = none) :
    removeReferences (c :: cs) = c :: removeReferences cs := by
  rw [removeReferences.eq_def]
  dsimp only
  split
  · next hsome =>
    rw [h] at hsome
    cases hsome
  · rfl

/-! ## The scan of a text -/

/-- What the scan of a text keeps first, and then, in turn, what it removes and what it keeps. -/
inductive Scan : List Char → List Char → List (List Char × List Char) → Prop
  | done : Scan [] [] []
  | keep {c : Char} {rest first : List Char} {cuts : List (List Char × List Char)} :
      afterMatch? (c :: rest) = none → Scan rest first cuts → Scan (c :: rest) (c :: first) cuts
  | cut {found rest first : List Char} {cuts : List (List Char × List Char)} :
      afterMatch? (found ++ rest) = some rest → Scan rest first cuts →
        Scan (found ++ rest) [] ((found, first) :: cuts)

/-- The pieces that are kept, joined. -/
def joined (first : List Char) (cuts : List (List Char × List Char)) : List Char :=
  first ++ cuts.flatMap (·.2)

/-- Whether a stretch of the joined pieces, with what stands before and after it, runs across a
cut. -/
def Across (first : List Char) (cuts : List (List Char × List Char))
    (before stretch after : List Char) : Prop :=
  ∃ cuts₁ cuts₂ head tail, cuts = cuts₁ ++ cuts₂ ∧ stretch = head ++ tail ∧ head ≠ [] ∧ tail ≠ [] ∧
    joined first cuts₁ = before ++ head ∧ cuts₂.flatMap (·.2) = tail ++ after

section

variable {stretch found : List Char}

theorem joined_cut (first found kept : List Char) (cuts : List (List Char × List Char)) :
    joined first ((found, kept) :: cuts) = first ++ joined kept cuts := by
  rw [joined, List.flatMap_cons, joined]

/-- Where an ending may fall: behind the first of two pieces, into it, or across the place between
them. -/
theorem ending_falls {kept : List Char} (h : first ++ kept = name ++ (ending ++ after)) :
    (∃ more, name = first ++ more ∧ kept = more ++ (ending ++ after)) ∨
      (∃ more, first = name ++ (ending ++ more)) ∨
        ∃ head tail, ending = head ++ tail ∧ head ≠ [] ∧ tail ≠ [] ∧ first = name ++ head ∧
          kept = tail ++ after := by
  rcases List.append_eq_append_iff.1 h with hbehind | ⟨head, rfl, hkept⟩
  · exact .inl hbehind
  · rcases List.append_eq_append_iff.1 hkept with ⟨more, rfl, -⟩ | ⟨tail, rfl, rfl⟩
    · exact .inr (.inl ⟨more, rfl⟩)
    · by_cases hhead : head = []
      · exact .inl ⟨[], by rw [hhead, List.append_nil, List.append_nil], by rw [hhead]; rfl⟩
      · by_cases htail : tail = []
        · exact .inr (.inl ⟨[], by rw [htail, List.append_nil, List.append_nil]⟩)
        · exact .inr (.inr ⟨head, tail, rfl, hhead, htail, rfl, rfl⟩)

theorem Across.keep (h : Across first cuts before stretch after) :
    Across (c :: first) cuts (c :: before) stretch after := by
  obtain ⟨cuts₁, cuts₂, head, tail, hcuts, hstretch, hhead, htail, hbefore, hafter⟩ := h
  exact ⟨cuts₁, cuts₂, head, tail, hcuts, hstretch, hhead, htail, congrArg (c :: ·) hbefore, hafter⟩

theorem Across.cut {kept : List Char} (h : Across kept cuts before stretch after) :
    Across first ((found, kept) :: cuts) (first ++ before) stretch after := by
  obtain ⟨cuts₁, cuts₂, head, tail, rfl, hstretch, hhead, htail, hbefore, hafter⟩ := h
  refine ⟨(found, kept) :: cuts₁, cuts₂, head, tail, rfl, hstretch, hhead, htail, ?_, hafter⟩
  rw [joined_cut, hbefore, List.append_assoc]

end

namespace Scan

/-- **Removing references is a scan.** -/
theorem of_removeReferences (t : List Char) :
    ∃ first cuts, Scan t first cuts ∧ removeReferences t = joined first cuts := by
  induction t using removeReferences.induct with
  | case1 => exact ⟨[], [], .done, by simp [removeReferences, joined]⟩
  | case2 c rest more hmatch _ ih =>
    obtain ⟨first, cuts, hscan, heq⟩ := ih
    have hresult := removeReferences_of_some hmatch
    obtain ⟨found, -, hsplit, -⟩ := afterMatch?_eq_some hmatch
    rw [hsplit] at hmatch hresult ⊢
    refine ⟨[], (found, first) :: cuts, .cut hmatch hscan, ?_⟩
    rw [hresult, heq, joined_cut, List.nil_append]
  | case3 c rest hmatch ih =>
    obtain ⟨first, cuts, hscan, heq⟩ := ih
    refine ⟨c :: first, cuts, .keep hmatch hscan, ?_⟩
    rw [removeReferences_of_none hmatch, heq]
    rfl

/-- Nothing is lost but what is removed. -/
theorem text_eq (h : Scan t first cuts) : t = first ++ cuts.flatMap fun p => p.1 ++ p.2 := by
  induction h with
  | done => rfl
  | keep _ _ ih => exact congrArg (_ :: ·) ih
  | cut _ _ ih => rw [List.nil_append, List.flatMap_cons, List.append_assoc, ← ih]

/-- What is removed is a match, and no name ends between it and the next blank. -/
theorem next {found kept : List Char} (h : Scan t first ((found, kept) :: cuts)) :
    ∃ rest, t = first ++ (found ++ rest) ∧ IsMatch found ∧ afterReference? rest = none ∧
      Scan rest kept cuts := by
  generalize hall : (found, kept) :: cuts = all at h
  induction h with
  | done => cases hall
  | keep _ _ ih =>
    obtain ⟨rest, rfl, hnext⟩ := ih hall
    exact ⟨rest, rfl, hnext⟩
  | @cut found' rest _ _ hmatch hscan _ =>
    cases hall
    obtain ⟨found'', hfound, heq, hlast⟩ := afterMatch?_eq_some hmatch
    obtain rfl := List.append_cancel_right heq
    exact ⟨rest, rfl, hfound, hlast, hscan⟩

theorem isMatch (h : Scan t first cuts) : ∀ p ∈ cuts, IsMatch p.1 := by
  induction cuts generalizing t first with
  | nil => exact fun _ hmem => absurd hmem List.not_mem_nil
  | cons p cuts ih =>
    obtain ⟨_, -, hfound, -, hscan⟩ := h.next
    exact List.forall_mem_cons.2 ⟨hfound, ih hscan⟩

/-- **There is no reference in what is kept before the first cut.** -/
theorem not_hasReference_first (h : Scan t first cuts) : ¬HasReference first := by
  have hempty : ¬HasReference [] := by
    rintro ⟨_, ⟨-, -⟩, hpart⟩
    cases List.infix_nil.1 hpart
  induction h with
  | done | cut => exact hempty
  | @keep c rest first cuts hmatch hscan ih =>
    rintro ⟨r, hr, hpart⟩
    rcases List.infix_cons_iff.1 hpart with ⟨more, hmore⟩ | hpart
    · -- What is kept begins like the text, so the reference would have been found in the text.
      obtain @⟨name, ending, hname, hending⟩ := hr
      obtain ⟨rfl, hfirst⟩ : '(' = c ∧ name ++ ending ++ more = first := List.cons.inj hmore
      have htext := hscan.text_eq
      rw [← hfirst, List.append_assoc, List.append_assoc] at htext
      exact not_reference_of_none (afterReference?_of_afterMatch? hmatch) hname hending htext
    · exact ih ⟨r, hr, hpart⟩

theorem not_hasReference (h : Scan t first cuts) : ∀ p ∈ cuts, ¬HasReference p.2 := by
  induction cuts generalizing t first with
  | nil => exact fun _ hmem => absurd hmem List.not_mem_nil
  | cons p cuts ih =>
    obtain ⟨_, -, -, -, hscan⟩ := h.next
    exact List.forall_mem_cons.2 ⟨hscan.not_hasReference_first, ih hscan⟩

/-- Where no name ends before the next blank, one ends in the joined pieces only across a cut. -/
theorem across_of_none (h : Scan t first cuts) (hnone : afterReference? t = none)
    (hname : Unbroken name) (hending : IsEnding ending)
    (heq : joined first cuts = name ++ (ending ++ after)) :
    Across first cuts name ending after := by
  -- The name may go on behind several cuts, and behind each of them no name ends again.
  induction cuts generalizing t first name with
  | nil =>
    rw [joined, List.flatMap_nil, List.append_nil] at heq
    have htext := h.text_eq
    rw [List.flatMap_nil, List.append_nil, heq] at htext
    exact absurd htext (not_reference_of_none hnone hname hending)
  | cons p cuts ih =>
    obtain ⟨found, kept⟩ := p
    obtain ⟨rest, rfl, -, hrest, hscan⟩ := h.next
    rw [joined_cut] at heq
    rcases ending_falls heq with
      ⟨more, rfl, hkept⟩ | ⟨more, rfl⟩ | ⟨head, tail, hsplit, hhead, htail, rfl, hkept⟩
    · exact (ih hscan hrest (unbroken_append.1 hname).2 hkept).cut
    · rw [List.append_assoc, List.append_assoc] at hnone
      exact absurd rfl (not_reference_of_none hnone hname hending)
    · refine ⟨[], (found, kept) :: cuts, head, tail, rfl, hsplit, hhead, htail, ?_, ?_⟩
      · rw [joined, List.flatMap_nil, List.append_nil]
      · rw [List.flatMap_cons]
        exact hkept

/-- **The ending of a reference in the joined pieces runs across a cut.** -/
theorem across (h : Scan t first cuts) (hname : Unbroken name) (hending : IsEnding ending)
    (heq : joined first cuts = before ++ '(' :: (name ++ (ending ++ after))) :
    Across first cuts (before ++ '(' :: name) ending after := by
  induction h generalizing before with
  | done => simp [joined] at heq
  | keep hmatch hscan ih =>
    cases before with
    | nil =>
      -- The parenthesis was kept, so no name ends behind it in the text.
      obtain ⟨rfl, hrest⟩ := List.cons.inj heq
      exact (hscan.across_of_none (afterReference?_of_afterMatch? hmatch) hname hending hrest).keep
    | cons b before =>
      obtain ⟨rfl, hrest⟩ := List.cons.inj heq
      exact (ih hrest).keep
  | @cut found _ first cuts _ _ ih =>
    have hcut := joined_cut [] found first cuts
    rw [heq, List.nil_append] at hcut
    exact (ih hcut.symm).cut

end Scan

/-! ## Texts without references -/

/-- Whether a text is cut into pieces that are kept and matches between them that are removed, so
that no piece has a reference of its own. -/
structure IsCut (t first : List Char) (cuts : List (List Char × List Char)) : Prop where
  text : t = first ++ cuts.flatMap fun p => p.1 ++ p.2
  removed : ∀ p ∈ cuts, IsMatch p.1
  first : ¬HasReference first
  kept : ∀ p ∈ cuts, ¬HasReference p.2

theorem Scan.isCut (h : Scan t first cuts) : IsCut t first cuts :=
  ⟨h.text_eq, h.isMatch, h.not_hasReference_first, h.not_hasReference⟩

/-- **References are cut out.** A reference that is left in the joined pieces is none that stood in
the text: its ending runs across a cut. -/
theorem exists_cut (t : List Char) :
    ∃ first cuts, IsCut t first cuts ∧ removeReferences t = joined first cuts ∧
      ∀ before name ending after, Unbroken name → IsEnding ending →
        joined first cuts = before ++ '(' :: (name ++ (ending ++ after)) →
          Across first cuts (before ++ '(' :: name) ending after := by
  obtain ⟨first, cuts, hscan, hresult⟩ := Scan.of_removeReferences t
  exact ⟨first, cuts, hscan.isCut, hresult,
    fun _ _ _ _ hname hending heq => hscan.across hname hending heq⟩

theorem IsMatch.hasReference (h : IsMatch r) : HasReference r := by
  cases h with
  | bare hr => exact ⟨r, hr, List.infix_rfl⟩
  | spaced _ hr => exact ⟨_, hr, List.infix_cons List.infix_rfl⟩

theorem HasReference.mono (h : HasReference cs) (hpart : cs <:+: ds) : HasReference ds := by
  obtain ⟨r, hr, hr'⟩ := h
  exact ⟨r, hr, hr'.trans hpart⟩

theorem length_kept_le (cuts : List (List Char × List Char)) :
    (cuts.flatMap (·.2)).length ≤ (cuts.flatMap fun p => p.1 ++ p.2).length := by
  induction cuts with
  | nil => exact Nat.le_refl _
  | cons p cuts ih =>
    simp only [List.flatMap_cons, List.length_append]
    omega

/-- **Nothing is removed from a text without references**, and any other becomes shorter. -/
theorem removeReferences_cases (t : List Char) :
    ¬HasReference t ∧ removeReferences t = t ∨
      HasReference t ∧ (removeReferences t).length < t.length := by
  obtain ⟨first, cuts, hcut, hresult, -⟩ := exists_cut t
  have htext := hcut.text
  rw [hresult, joined]
  -- A text that has not been cut is as it was; each cut takes away a reference.
  cases cuts with
  | nil =>
    rw [List.flatMap_nil, List.append_nil] at htext ⊢
    exact .inl ⟨htext ▸ hcut.first, htext.symm⟩
  | cons p cuts =>
    have hfound := (hcut.removed p List.mem_cons_self).hasReference
    rw [List.flatMap_cons, List.append_assoc] at htext
    have hpart : p.1 <:+: t := by
      rw [htext, ← List.append_assoc]
      exact ⟨first, _, rfl⟩
    refine .inr ⟨hfound.mono hpart, ?_⟩
    have hnonempty : 0 < p.1.length := by
      obtain ⟨_, ⟨-, -⟩, hpart⟩ := hfound
      exact Nat.lt_of_lt_of_le (Nat.succ_pos _) hpart.length_le
    have hkept := length_kept_le cuts
    rw [htext]
    simp only [List.flatMap_cons, List.length_append]
    omega

end SourceDrift.Reference
