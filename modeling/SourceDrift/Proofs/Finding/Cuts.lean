/-
The one way to cut a text.

The scan of a text decides from the front what is kept and what is removed. What it comes to can be
said without it. Every piece that is removed is a reference, the longest that starts at its
parenthesis, with the blank directly before it if there is one; and no reference starts at a
parenthesis that is kept, not even one that would run on behind the piece. These conditions look at
a piece and the text around it, not at a scan, and there is one cut of a text that meets them.

That what is read is the longest reference rests on where references can end. The ending of a
reference has its closing parenthesis last and no other. So a longer reference ends in an ending
that stands behind the shorter one, and the reader has made sure that there is none.
-/
import SourceDrift.Proofs.Finding.Reference

set_option autoImplicit false

namespace SourceDrift.Reference

variable {cs ds name ending rest more before after found kept t first r other : List Char}
  {c : Char} {cuts : List (List Char × List Char)}

/-! ## Where references end -/

theorem IsNumber.no_close (h : IsNumber ds) : ')' ∉ ds :=
  fun hmem => absurd (h.2 _ hmem) (by decide)

theorem IsLines.no_close (h : IsLines cs) : ')' ∉ cs := by
  cases h with
  | nowhere => exact List.not_mem_nil
  | line hds =>
    rw [List.mem_cons]
    rintro (hhash | hmem)
    · cases hhash
    · exact hds.no_close hmem
  | range hds hes =>
    rw [List.mem_cons, List.mem_append, List.mem_cons]
    rintro (hhash | hmem | hdash | hmem)
    · cases hhash
    · exact hds.no_close hmem
    · cases hdash
    · exact hes.no_close hmem

/-- **An ending has one closing parenthesis**, and it is the last character. -/
theorem IsEnding.eq_append_close (h : IsEnding ending) :
    ∃ body, ending = body ++ [')'] ∧ ')' ∉ body := by
  obtain @⟨s, o, l, lines, hs, ho, hl, hlines⟩ := h
  refine ⟨'.' :: s :: o :: l :: lines, rfl, ?_⟩
  simp only [List.mem_cons]
  rintro (hdot | rfl | rfl | rfl | hmem)
  · cases hdot
  · exact absurd hs (by decide)
  · exact absurd ho (by decide)
  · exact absurd hl (by decide)
  · exact hlines.no_close hmem

/-- **What a longer reference has more than a shorter one** is characters without blanks and an
ending. -/
theorem IsReference.exists_ending (hr : IsReference r) (hother : IsReference (r ++ more))
    (hmore : more ≠ []) : ∃ name ending, Unbroken name ∧ IsEnding ending ∧
    more = name ++ ending := by
  obtain @⟨name, ending, -, hending⟩ := hr
  generalize hall : '(' :: (name ++ ending) ++ more = all at hother
  obtain @⟨name', ending', hname', hending'⟩ := hother
  obtain ⟨-, hall⟩ := List.cons.inj hall
  rcases List.append_eq_append_iff.1 hall with ⟨tail, rfl, rfl⟩ | ⟨tail, hshort, hlong⟩
  · exact ⟨tail, ending', (unbroken_append.1 hname').2, hending', rfl⟩
  · -- The longer reference's ending starts in the shorter one, which has to end where it starts.
    obtain ⟨body, rfl, -⟩ := hending.eq_append_close
    obtain ⟨body', rfl, hclose⟩ := hending'.eq_append_close
    rcases List.eq_nil_or_concat tail with rfl | ⟨front, c, rfl⟩
    · exact ⟨[], _, unbroken_nil, hending', by rw [List.nil_append, hlong, List.nil_append]⟩
    · rw [List.concat_eq_append, ← List.append_assoc, ← List.append_assoc] at hshort
      obtain rfl : ')' = c := List.singleton_inj.1 (List.append_inj' hshort rfl).2
      obtain ⟨last, d, rfl⟩ := (List.eq_nil_or_concat more).resolve_left hmore
      rw [List.concat_eq_append, List.concat_eq_append, ← List.append_assoc] at hlong
      have hbody : body' = front ++ [')'] ++ last := (List.append_inj' hlong rfl).1
      rw [hbody] at hclose
      exact absurd (by simp) hclose

/-! ## The longest reference -/

/-- Whether a text is a reference, and no longer one starts where it starts if `rest` stands behind
it. -/
structure IsLongest (r rest : List Char) : Prop where
  reference : IsReference r
  longest : ∀ other, IsReference other → other <+: r ++ rest → other.length ≤ r.length

theorem IsReference.exists_cons (h : IsReference r) : ∃ tail, r = '(' :: tail := by
  obtain ⟨-, -⟩ := h
  exact ⟨_, rfl⟩

theorem IsLongest.unique {r' rest' : List Char} (h : IsLongest r rest) (h' : IsLongest r' rest')
    (heq : r ++ rest = r' ++ rest') : r = r' ∧ rest = rest' := by
  have hle := h.longest r' h'.reference (heq ▸ List.prefix_append r' rest')
  have hge := h'.longest r h.reference (heq ▸ List.prefix_append r rest)
  exact List.append_inj heq (Nat.le_antisymm hge hle)

theorem isLongest_of_none (hr : IsReference r) (hnone : afterReference? rest = none) :
    IsLongest r rest := by
  refine ⟨hr, fun other hother hstarts => Nat.le_of_not_lt fun hlonger => ?_⟩
  obtain ⟨more, rfl⟩ :=
    List.prefix_of_prefix_length_le (List.prefix_append r rest) hstarts (Nat.le_of_lt hlonger)
  have hmore : more ≠ [] := by
    rintro rfl
    rw [List.append_nil] at hlonger
    exact Nat.lt_irrefl _ hlonger
  obtain ⟨name, ending, hname, hending, rfl⟩ := hr.exists_ending hother hmore
  obtain ⟨behind, hbehind⟩ := (List.prefix_append_right_inj r).1 hstarts
  rw [List.append_assoc] at hbehind
  exact not_reference_of_none hnone hname hending hbehind.symm

theorem not_prefix_of_none (h : afterReference? cs = none) (hr : IsReference r) :
    ¬r <+: '(' :: cs := by
  obtain ⟨hname, hending⟩ := hr
  rintro ⟨rest, heq⟩
  rw [List.cons_append, List.append_assoc] at heq
  exact not_reference_of_none h hname hending (List.cons.inj heq).2.symm

/-- **The reader answers the longest reference.** -/
theorem afterReference?_iff :
    afterReference? cs = some rest ↔ ∃ r, '(' :: cs = r ++ rest ∧ IsLongest r rest := by
  have hsound : ∀ {rest}, afterReference? cs = some rest →
      ∃ r, '(' :: cs = r ++ rest ∧ IsLongest r rest := by
    intro rest h
    obtain ⟨name, ending, hname, hending, rfl, hlast⟩ := afterReference?_eq_some h
    exact ⟨_, by simp, isLongest_of_none (.intro hname hending) hlast⟩
  refine ⟨hsound, fun ⟨r, heq, hlongest⟩ => ?_⟩
  cases hread : afterReference? cs with
  | none => exact absurd ⟨rest, heq.symm⟩ (not_prefix_of_none hread hlongest.reference)
  | some found =>
    obtain ⟨r', heq', hlongest'⟩ := hsound hread
    rw [(hlongest'.unique hlongest (heq'.symm.trans heq)).2]

theorem afterMatch?_open : afterMatch? ('(' :: cs) = afterReference? cs := by
  unfold afterMatch?
  dsimp only
  rw [if_pos (Eq.refl '(')]

theorem afterMatch?_blank (hc : Text.isBlank c = true) :
    afterMatch? (c :: '(' :: cs) = afterReference? cs := by
  have hopen : c ≠ '(' := by
    rintro rfl
    exact absurd hc (by decide)
  unfold afterMatch?
  dsimp only
  rw [if_neg hopen, if_pos hc]
  rfl

/-- **A text goes on with nothing that is removed, or with the longest reference**, before which
there may be a blank. -/
theorem afterMatch?_iff : afterMatch? cs = some rest ↔
    ∃ r, IsLongest r rest ∧
    (cs = r ++ rest ∨ ∃ c, Text.isBlank c = true ∧ cs = c :: (r ++ rest)) := by
  constructor
  · intro h
    -- A match begins with a bracket, or with a blank that has one behind it.
    unfold afterMatch? at h
    split at h
    · cases h
    · split at h
      · next hopen =>
        obtain ⟨r, heq, hlongest⟩ := afterReference?_iff.1 h
        exact ⟨r, hlongest, .inl (hopen ▸ heq)⟩
      · split at h
        · next hblank =>
          split at h
          · obtain ⟨r, heq, hlongest⟩ := afterReference?_iff.1 h
            exact ⟨r, hlongest, .inr ⟨_, hblank, congrArg _ heq⟩⟩
          · cases h
        · cases h
  · rintro ⟨r, hlongest, hcs⟩
    obtain ⟨tail, rfl⟩ := hlongest.reference.exists_cons
    have hread : afterReference? (tail ++ rest) = some rest :=
      afterReference?_iff.2 ⟨_, rfl, hlongest⟩
    rcases hcs with rfl | ⟨c, hblank, rfl⟩
    · exact afterMatch?_open.trans hread
    · exact (afterMatch?_blank hblank).trans hread

/-! ## Pieces -/

/-- The text that pieces have been cut from. -/
def uncut (first : List Char) (cuts : List (List Char × List Char)) : List Char :=
  first ++ cuts.flatMap fun p => p.1 ++ p.2

theorem uncut_cons (c : Char) (first : List Char) (cuts : List (List Char × List Char)) :
    uncut (c :: first) cuts = c :: uncut first cuts := rfl

theorem uncut_cut (first found kept : List Char) (cuts : List (List Char × List Char)) :
    uncut first ((found, kept) :: cuts) = first ++ (found ++ uncut kept cuts) := by
  simp only [uncut, List.flatMap_cons, List.append_assoc]

theorem uncut_append (first found kept : List Char) (earlier later : List (List Char × List Char)) :
    uncut first (earlier ++ (found, kept) :: later) =
      uncut first earlier ++ (found ++ uncut kept later) := by
  simp only [uncut, List.flatMap_append, List.flatMap_cons, List.append_assoc]

/-- Whether a piece is what is removed between the texts before and behind it: the longest reference
that starts at its parenthesis, with the blank that stands directly before it if there is one. -/
inductive IsRemoved (before : List Char) : List Char → List Char → Prop
  | bare {r rest : List Char} : IsLongest r rest → (∀ c ∈ before.getLast?, Text.isBlank c = false) →
      IsRemoved before r rest
  | spaced {c : Char} {r rest : List Char} : Text.isBlank c = true → IsLongest r rest →
      IsRemoved before (c :: r) rest

/-- Whether a reference starts at a parenthesis of a piece with `rest` behind it. It may run on
behind the piece. -/
def StartsIn (piece rest : List Char) : Prop :=
  ∃ head tail r, piece = head ++ '(' :: tail ∧ IsReference r ∧ r <+: '(' :: (tail ++ rest)

/-- Whether pieces are those of the cut of a text: what is removed is exactly that, and no reference
starts in what is kept. -/
structure IsExact (first : List Char) (cuts : List (List Char × List Char)) : Prop where
  removed : ∀ earlier found kept later, cuts = earlier ++ (found, kept) :: later →
    IsRemoved (uncut first earlier) found (uncut kept later)
  first : ¬StartsIn first (cuts.flatMap fun p => p.1 ++ p.2)
  kept : ∀ earlier found kept later, cuts = earlier ++ (found, kept) :: later →
    ¬StartsIn kept (later.flatMap fun p => p.1 ++ p.2)

theorem IsRemoved.afterMatch? (h : IsRemoved before found rest) :
    afterMatch? (found ++ rest) = some rest := by
  cases h with
  | bare hlongest => exact afterMatch?_iff.2 ⟨_, hlongest, .inl rfl⟩
  | spaced hblank hlongest => exact afterMatch?_iff.2 ⟨_, hlongest, .inr ⟨_, hblank, rfl⟩⟩

theorem isRemoved_nil (h : Reference.afterMatch? (found ++ rest) = some rest) :
    IsRemoved [] found rest := by
  obtain ⟨r, hlongest, heq | ⟨c, hblank, heq⟩⟩ := afterMatch?_iff.1 h
  · obtain rfl := List.append_cancel_right heq
    exact .bare hlongest nofun
  · rw [← List.cons_append] at heq
    obtain rfl := List.append_cancel_right heq
    exact .spaced hblank hlongest

/-- What is removed still is if less stands before it. -/
theorem IsRemoved.of_append (h : IsRemoved (before ++ after) found rest) :
    IsRemoved after found rest := by
  cases h with
  | bare hlongest hlast =>
    refine .bare hlongest fun c hc => hlast c ?_
    rw [Option.mem_def] at hc ⊢
    rw [List.getLast?_append, hc]
    rfl
  | spaced hblank hlongest => exact .spaced hblank hlongest

/-- What is removed still is if more stands before it, and no blank comes to stand directly before a
reference. -/
theorem IsRemoved.append (h : IsRemoved after found rest)
    (hlast : after = [] → IsLongest found rest → ∀ c ∈ before.getLast?, Text.isBlank c = false) :
    IsRemoved (before ++ after) found rest := by
  cases h with
  | bare hlongest hafter =>
    refine .bare hlongest fun c hc => ?_
    rw [Option.mem_def, List.getLast?_append, Option.or_eq_some_iff] at hc
    rcases hc with hc | ⟨hnone, hc⟩
    · exact hafter c hc
    · exact hlast (List.getLast?_eq_none_iff.1 hnone) hlongest c hc
  | spaced hblank hlongest => exact .spaced hblank hlongest

theorem IsRemoved.last (h : IsRemoved before found rest) : found.getLast? = some ')' := by
  have hreference : ∀ {r}, IsReference r → r.getLast? = some ')' := by
    rintro _ ⟨-, hending⟩
    obtain ⟨body, rfl, -⟩ := hending.eq_append_close
    rw [← List.append_assoc, ← List.cons_append, List.getLast?_concat]
  cases h with
  | bare hlongest => exact hreference hlongest.reference
  | spaced _ hlongest => rw [List.getLast?_cons, hreference hlongest.reference]; rfl

theorem startsIn_cons : StartsIn (c :: first) rest ↔
    (c = '(' ∧ ∃ r, IsReference r ∧ r <+: '(' :: (first ++ rest)) ∨ StartsIn first rest := by
  constructor
  · rintro ⟨head, tail, r, heq, hr, hstarts⟩
    cases head with
    | nil =>
      cases heq
      exact .inl ⟨rfl, r, hr, hstarts⟩
    | cons _ head =>
      cases heq
      exact .inr ⟨head, tail, r, rfl, hr, hstarts⟩
  · rintro (⟨rfl, r, hr, hstarts⟩ | ⟨head, tail, r, rfl, hr, hstarts⟩)
    · exact ⟨[], first, r, rfl, hr, hstarts⟩
    · exact ⟨c :: head, tail, r, rfl, hr, hstarts⟩

theorem not_startsIn_nil : ¬StartsIn [] rest := by
  rintro ⟨head, tail, -, heq, -⟩
  cases head <;> cases heq

namespace IsExact

/-- Behind a blank that is kept no reference starts. It would start at a parenthesis that is kept,
or be removed without the blank. -/
theorem not_prefix_of_blank (h : IsExact (c :: first) cuts) (hc : Text.isBlank c = true)
    (hr : IsReference r) : ¬r <+: uncut first cuts := by
  rintro ⟨rest, heq⟩
  obtain ⟨tail, rfl⟩ := hr.exists_cons
  cases first with
  | cons d first =>
    obtain rfl := (List.cons.inj heq).1
    exact h.first ⟨[c], first, _, rfl, hr, rest, heq⟩
  | nil =>
    cases cuts with
    | nil => cases heq
    | cons p cuts =>
      obtain ⟨found, kept⟩ := p
      rw [uncut_cut, List.nil_append] at heq
      cases h.removed [] found kept cuts rfl with
      | bare hlongest hlast => exact absurd hc (Bool.eq_false_iff.1 (hlast c rfl))
      | spaced hblank hlongest =>
        obtain rfl := (List.cons.inj heq).1
        exact absurd hblank (by decide)

/-- **A character is kept** exactly if nothing is removed from there on. -/
theorem keep_iff : IsExact (c :: first) cuts ↔
    afterMatch? (uncut (c :: first) cuts) = none ∧ IsExact first cuts := by
  constructor
  · intro h
    refine ⟨?_, fun earlier found kept later heq => ?_, fun hstarts => ?_, h.kept⟩
    · rw [Option.eq_none_iff_forall_ne_some]
      intro rest hmatch
      obtain ⟨r, hlongest, heq | ⟨d, hblank, heq⟩⟩ := afterMatch?_iff.1 hmatch
      · obtain ⟨tail, rfl⟩ := hlongest.reference.exists_cons
        obtain rfl := (List.cons.inj heq).1
        exact h.first (startsIn_cons.2 (.inl ⟨rfl, _, hlongest.reference, rest, heq.symm⟩))
      · obtain ⟨rfl, hbehind⟩ := List.cons.inj heq
        exact h.not_prefix_of_blank hblank hlongest.reference ⟨rest, hbehind.symm⟩
    · have hremoved := h.removed earlier found kept later heq
      rw [uncut_cons, ← List.singleton_append] at hremoved
      exact hremoved.of_append
    · exact h.first (startsIn_cons.2 (.inr hstarts))
  · rintro ⟨hnone, h⟩
    refine ⟨fun earlier found kept later heq => ?_, fun hstarts => ?_, h.kept⟩
    · rw [uncut_cons, ← List.singleton_append]
      refine (h.removed earlier found kept later heq).append fun hnil hlongest d hd => ?_
      -- A blank directly before a reference would not have been kept.
      obtain rfl : c = d := Option.some.inj hd
      rw [Bool.eq_false_iff]
      intro hblank
      rw [uncut_cons, heq, uncut_append, hnil, List.nil_append,
        afterMatch?_iff.2 ⟨found, hlongest, .inr ⟨c, hblank, rfl⟩⟩] at hnone
      cases hnone
    · rcases startsIn_cons.1 hstarts with ⟨rfl, r, hr, hstarts⟩ | hstarts
      · rw [uncut_cons, afterMatch?_open] at hnone
        exact not_prefix_of_none hnone hr hstarts
      · exact h.first hstarts

/-- **A piece is removed** exactly if the text goes on with it. -/
theorem cut_iff : IsExact [] ((found, kept) :: cuts) ↔
    afterMatch? (found ++ uncut kept cuts) = some (uncut kept cuts) ∧ IsExact kept cuts := by
  constructor
  · intro h
    refine ⟨(h.removed [] found kept cuts rfl).afterMatch?, ?_, ?_, ?_⟩
    · intro earlier found' kept' later heq
      have hremoved := h.removed ((found, kept) :: earlier) found' kept' later (congrArg _ heq)
      rw [uncut_cut, List.nil_append] at hremoved
      exact hremoved.of_append
    · exact h.kept [] found kept cuts rfl
    · exact fun earlier found' kept' later heq =>
        h.kept ((found, kept) :: earlier) found' kept' later (congrArg _ heq)
  · rintro ⟨hmatch, h⟩
    -- The first piece is the one that the text goes on with; the others are those of the cut behind
    -- it.
    have hremoved := isRemoved_nil hmatch
    refine ⟨fun earlier found' kept' later heq => ?_, not_startsIn_nil,
      fun earlier found' kept' later heq => ?_⟩
    · cases earlier with
      | nil =>
        cases heq
        exact hremoved
      | cons p earlier =>
        cases heq
        rw [uncut_cut, List.nil_append]
        refine (h.removed earlier found' kept' later rfl).append fun _ _ c hc => ?_
        rw [hremoved.last, Option.mem_some_iff] at hc
        subst hc
        decide
    · cases earlier with
      | nil =>
        cases heq
        exact h.first
      | cons p earlier =>
        cases heq
        exact h.kept earlier found' kept' later rfl

theorem nil : IsExact [] [] := by
  refine ⟨fun earlier _ _ _ heq => ?_, not_startsIn_nil, fun earlier _ _ _ heq => ?_⟩
  · cases earlier <;> cases heq
  · cases earlier <;> cases heq

end IsExact

/-- **A scan is an exact cut**, and there is no other scan. -/
theorem scan_iff : Scan t first cuts ↔ t = uncut first cuts ∧ IsExact first cuts := by
  constructor
  · intro h
    refine ⟨h.text_eq, ?_⟩
    induction h with
    | done => exact .nil
    | keep hmatch hscan ih =>
      rw [hscan.text_eq] at hmatch
      exact IsExact.keep_iff.2 ⟨hmatch, ih⟩
    | cut hmatch hscan ih =>
      rw [hscan.text_eq] at hmatch
      exact IsExact.cut_iff.2 ⟨hmatch, ih⟩
  · rintro ⟨rfl, h⟩
    -- By the cuts, and between two of them by the characters that are kept.
    induction cuts generalizing first with
    | nil =>
      induction first with
      | nil => exact .done
      | cons c first ih =>
        obtain ⟨hmatch, h⟩ := IsExact.keep_iff.1 h
        exact .keep hmatch (ih h)
    | cons p cuts ih =>
      obtain ⟨found, kept⟩ := p
      induction first with
      | nil =>
        obtain ⟨hmatch, h⟩ := IsExact.cut_iff.1 h
        rw [uncut_cut, List.nil_append]
        exact .cut hmatch (ih h)
      | cons c first ih' =>
        obtain ⟨hmatch, h⟩ := IsExact.keep_iff.1 h
        exact .keep hmatch (ih' h)

/-- **A text is scanned in one way.** -/
theorem Scan.unique {first' : List Char} {cuts' : List (List Char × List Char)}
    (h : Scan t first cuts)
    (h' : Scan t first' cuts') : first' = first ∧ cuts' = cuts := by
  -- Whether the next step keeps a character or cuts is settled by what matches there.
  induction h generalizing first' cuts' with
  | done =>
    generalize hall : ([] : List Char) = all at h'
    cases h' with
    | done => exact ⟨rfl, rfl⟩
    | keep => cases hall
    | cut hmatch =>
      rw [← hall] at hmatch
      cases hmatch
  | @keep c rest _ _ hmatch hscan ih =>
    generalize hall : c :: rest = all at h'
    cases h' with
    | done => cases hall
    | keep _ hscan' =>
      cases hall
      obtain ⟨rfl, rfl⟩ := ih hscan'
      exact ⟨rfl, rfl⟩
    | cut hmatch' =>
      rw [← hall, hmatch] at hmatch'
      cases hmatch'
  | @cut found rest _ _ hmatch hscan ih =>
    generalize hall : found ++ rest = all at h'
    cases h' with
    | done =>
      rw [hall] at hmatch
      cases hmatch
    | keep hmatch' =>
      rw [← hall, hmatch] at hmatch'
      cases hmatch'
    | cut hmatch' hscan' =>
      rw [← hall, hmatch] at hmatch'
      cases hmatch'
      obtain rfl := List.append_cancel_right hall
      obtain ⟨rfl, rfl⟩ := ih hscan'
      exact ⟨rfl, rfl⟩

/-- **References are cut out exactly.** A text is cut into pieces that are kept and pieces between
them that are removed. What is removed is a reference, the longest that starts at its parenthesis,
with one blank before it if there is one directly before the parenthesis and with nothing if there
is none. No piece that is kept has a reference in it, and none starts in it that runs on behind it.
The pieces that are kept, in order, are what is left. There is no other cut like this. -/
theorem references_cut_exactly (t : List Char) :
    ∃ first cuts, IsCut t first cuts ∧ IsExact first cuts ∧ removeReferences t = joined first cuts ∧
      ∀ first' cuts', t = uncut first' cuts' → IsExact first' cuts' → first' = first ∧
      cuts' = cuts := by
  obtain ⟨first, cuts, hscan, hresult⟩ := Scan.of_removeReferences t
  refine ⟨first, cuts, hscan.isCut, (scan_iff.1 hscan).2, hresult,
    fun first' cuts' htext hexact => ?_⟩
  exact hscan.unique (scan_iff.2 ⟨htext, hexact⟩)

/-- Two endings behind one parenthesis, capitals, a long s, lines, a tab, and parentheses that start
nothing. -/
example : String.ofList (removeReferences
    "(a (b.sol#1-2)\t(c.\u017FOL)(d.sol)x(e.sol#)".toList) = "(ax(e.sol#)" := by
  decide +kernel

end SourceDrift.Reference
