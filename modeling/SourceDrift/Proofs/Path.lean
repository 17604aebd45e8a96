/-
The text of a path and its parts.

A path that a text names has parts without slashes, none of them idle, and so its text
splits at the slashes into the parts again. Putting double dots together goes part by part:
a name behind a path stays behind what the path comes to.
-/
import SourceDrift.FileTree.Walk

set_option autoImplicit false

namespace SourceDrift

/-! ## Splitting -/

theorem Text.splitOn_ne_nil (sep : Char) (cs : List Char) : splitOn sep cs ≠ [] := by
  cases cs with
  | nil => exact List.cons_ne_nil _ _
  | cons c rest =>
    rw [splitOn]
    split
    · exact List.cons_ne_nil _ _
    · split <;> exact List.cons_ne_nil _ _

theorem Text.splitOn_append (sep : Char) (xs ys : List Char) :
    splitOn sep (xs ++ sep :: ys) = splitOn sep xs ++ splitOn sep ys := by
  induction xs with
  | nil =>
    show splitOn sep (sep :: ys) = [] :: splitOn sep ys
    rw [splitOn]
    exact if_pos rfl
  | cons c rest ih =>
    rw [List.cons_append, splitOn, splitOn]
    split
    · rw [ih, List.cons_append]
    · rw [ih]
      obtain ⟨piece, pieces, hrest⟩ := List.exists_cons_of_ne_nil (splitOn_ne_nil sep rest)
      rw [hrest]
      rfl

theorem Text.splitOn_of_not_mem {sep : Char} {cs : List Char} (hcs : sep ∉ cs) :
    splitOn sep cs = [cs] := by
  induction cs with
  | nil => rfl
  | cons c rest ih =>
    rw [List.mem_cons, not_or] at hcs
    rw [splitOn, if_neg (Ne.symm hcs.1), ih hcs.2]

theorem Text.not_mem_of_mem_splitOn {sep : Char} {cs piece : List Char}
    (h : piece ∈ splitOn sep cs) :
    sep ∉ piece := by
  -- By the text: a separator ends a piece, and any other character goes to the first of the rest.
  induction cs generalizing piece with
  | nil =>
    rw [List.mem_singleton.1 h]
    exact List.not_mem_nil
  | cons c rest ih =>
    rw [splitOn] at h
    split at h
    · rcases List.mem_cons.1 h with rfl | h
      · exact List.not_mem_nil
      · exact ih h
    · next hc =>
      cases hrest : splitOn sep rest with
      | nil =>
        rw [hrest] at h
        rw [List.mem_singleton.1 h, List.mem_singleton]
        exact Ne.symm hc
      | cons first pieces =>
        rw [hrest] at h ih
        rcases List.mem_cons.1 h with rfl | h
        · rw [List.mem_cons, not_or]
          exact ⟨Ne.symm hc, ih List.mem_cons_self⟩
        · exact ih (List.mem_cons_of_mem _ h)

namespace Path

/-! ## Paths that texts name -/

/-- Whether a part is one that a text can name: without a slash, and not idle. -/
structure IsPart (part : String) : Prop where
  noSlash : '/' ∉ part.toList
  notIdle : FileTree.isIdle part = false

/-- Whether a path is one that a text can name. -/
structure Proper (p : Path) : Prop where
  anchor : p.anchor = "" ∨ p.anchor = "/" ∨ p.anchor = "//"
  parts : ∀ part ∈ p.parts, IsPart part

theorem not_isIdle_ofList (piece : List Char) :
    (!FileTree.isIdle (String.ofList piece)) = (piece != [] && piece != ['.']) := by
  have hempty : (String.ofList piece = "") = (piece = []) := by
    rw [← String.ofList_inj]
  have hdot : (String.ofList piece = ".") = (piece = ['.']) := by
    rw [← String.ofList_inj]
  rw [Bool.eq_iff_iff]
  simp [FileTree.isIdle, hempty, hdot]

/-- The pieces of a text that are not idle are the parts of the path that it names. -/
theorem filter_pieces (text : String) :
    ((Text.splitOn '/' text.toList).map String.ofList).filter (!FileTree.isIdle ·) =
      (ofString text).parts := by
  rw [ofString, partsOf, List.filter_map]
  congr 1
  exact List.filter_congr (fun piece _ => not_isIdle_ofList piece)

theorem proper_ofString (text : String) : (ofString text).Proper := by
  constructor
  · rw [ofString, anchorOf]
    split
    · exact .inl rfl
    · exact .inr (.inr rfl)
    · exact .inr (.inl rfl)
  · intro part hpart
    rw [← filter_pieces] at hpart
    obtain ⟨hpiece, hidle⟩ := List.mem_filter.1 hpart
    obtain ⟨piece, hmem, rfl⟩ := List.mem_map.1 hpiece
    refine ⟨?_, ?_⟩
    · rw [String.toList_ofList]
      exact Text.not_mem_of_mem_splitOn hmem
    · rwa [Bool.not_eq_true'] at hidle

theorem Proper.child {p : Path} {name : String} (hp : p.Proper) (hname : IsPart name) :
    (p.child name).Proper where
  anchor := hp.anchor
  parts part hpart := by
    rcases List.mem_append.1 hpart with hpart | hpart
    · exact hp.parts part hpart
    · rw [List.mem_singleton.1 hpart]
      exact hname

theorem splitOn_intercalate {parts : List String} (hparts : ∀ part ∈ parts, IsPart part)
    (hne : parts ≠ []) :
    Text.splitOn '/' ("/".intercalate parts).toList = parts.map String.toList := by
  induction parts with
  | nil => exact absurd rfl hne
  | cons part rest ih =>
    have hpart := (hparts part List.mem_cons_self).noSlash
    cases rest with
    | nil =>
      rw [String.intercalate_singleton, Text.splitOn_of_not_mem hpart]
      rfl
    | cons next rest =>
      have hrest := ih (fun p hp => hparts p (List.mem_cons_of_mem _ hp)) (List.cons_ne_nil _ _)
      rw [String.intercalate_cons_cons, String.toList_append, String.toList_append,
        show "/".toList = ['/'] from rfl, List.append_assoc, List.singleton_append,
        Text.splitOn_append, Text.splitOn_of_not_mem hpart, hrest]
      rfl

/-- A path's text has all the characters of its parts. -/
theorem mem_toString {p : Path} {part : String} {c : Char} (hpart : part ∈ p.parts)
    (hc : c ∈ part.toList) : c ∈ p.toString.toList := by
  have hjoined : c ∈ ("/".intercalate p.parts).toList := by
    generalize p.parts = parts at hpart
    induction parts with
    | nil => exact absurd hpart List.not_mem_nil
    | cons first rest ih =>
      cases rest with
      | nil =>
        rw [List.mem_singleton.1 hpart] at hc
        rw [String.intercalate_singleton]
        exact hc
      | cons next rest =>
        rw [String.intercalate_cons_cons, String.toList_append, String.toList_append,
          List.append_assoc]
        rcases List.mem_cons.1 hpart with rfl | hpart
        · exact List.mem_append_left _ hc
        · exact List.mem_append_right _ (List.mem_append_right _ (ih hpart))
  have hparts : ¬(p.anchor = "" ∧ p.parts = []) := by
    rintro ⟨-, hnil⟩
    rw [hnil] at hpart
    exact absurd hpart List.not_mem_nil
  rw [toString, if_neg hparts, String.toList_append]
  exact List.mem_append_right _ hjoined

theorem mem_intercalate {c : Char} {parts : List String} (hc : c ∈ ("/".intercalate parts).toList) :
    c = '/' ∨ ∃ part ∈ parts, c ∈ part.toList := by
  induction parts with
  | nil => exact absurd hc List.not_mem_nil
  | cons part rest ih =>
    cases rest with
    | nil =>
      rw [String.intercalate_singleton] at hc
      exact .inr ⟨part, List.mem_cons_self, hc⟩
    | cons next rest =>
      rw [String.intercalate_cons_cons, String.toList_append, String.toList_append, List.mem_append,
        List.mem_append] at hc
      rcases hc with (hc | hc) | hc
      · exact .inr ⟨part, List.mem_cons_self, hc⟩
      · exact .inl (List.mem_singleton.1 hc)
      · exact (ih hc).imp_right fun ⟨found, hfound, hc⟩ =>
          ⟨found, List.mem_cons_of_mem _ hfound, hc⟩

/-- A path's text has no other characters than those of its parts, slashes and a dot. -/
theorem mem_of_mem_toString {p : Path} {c : Char}
    (hanchor : p.anchor = "" ∨ p.anchor = "/" ∨ p.anchor = "//")
    (hc : c ∈ p.toString.toList) : c = '.' ∨ c = '/' ∨ ∃ part ∈ p.parts, c ∈ part.toList := by
  unfold toString at hc
  by_cases hempty : p.anchor = "" ∧ p.parts = []
  · rw [if_pos hempty] at hc
    exact .inl (List.mem_singleton.1 hc)
  · rw [if_neg hempty, String.toList_append, List.mem_append] at hc
    rcases hc with hc | hc
    · have hslash : c = '/' := by
        rcases hanchor with h | h | h
        · rw [h] at hc
          exact absurd hc List.not_mem_nil
        · rw [h] at hc
          exact List.mem_singleton.1 hc
        · rw [h] at hc
          rcases List.mem_cons.1 hc with hc | hc
          · exact hc
          · exact List.mem_singleton.1 hc
      exact .inr (.inl hslash)
    · exact .inr (mem_intercalate hc)

/-- The text of parts does not start with a slash. -/
theorem takeWhile_intercalate {parts : List String} (hparts : ∀ part ∈ parts, IsPart part) :
    ("/".intercalate parts).toList.takeWhile (· == '/') = [] := by
  cases parts with
  | nil => rfl
  | cons part rest =>
    -- The first character is that of the first part, which has one and no slash in it.
    have hpart := hparts part List.mem_cons_self
    cases hchars : part.toList with
    | nil =>
      have hnil : part = "" := String.toList_inj.1 hchars
      subst hnil
      exact absurd hpart.notIdle (by decide)
    | cons c cs =>
      have hslash := hpart.noSlash
      rw [hchars, List.mem_cons, not_or] at hslash
      have hc : (c == '/') = false := beq_eq_false_iff_ne.2 (Ne.symm hslash.1)
      have hstart : ∃ more, ("/".intercalate (part :: rest)).toList = c :: more := by
        cases rest with
        | nil => exact ⟨cs, by rw [String.intercalate_singleton, hchars]⟩
        | cons next rest =>
          refine ⟨cs ++ ("/".toList ++ ("/".intercalate (next :: rest)).toList), ?_⟩
          rw [String.intercalate_cons_cons, String.toList_append, String.toList_append, hchars,
            List.append_assoc, List.cons_append]
      obtain ⟨more, hmore⟩ := hstart
      rw [hmore, List.takeWhile_cons_of_neg (by rw [hc]; exact Bool.false_ne_true)]

/-- **A path's text names the path.** -/
theorem Proper.ofString_toString {p : Path} (hp : p.Proper) : ofString p.toString = p := by
  obtain ⟨anchor, parts⟩ := p
  by_cases hparts : parts = []
  · subst hparts
    rcases hp.anchor with h | h | h <;> dsimp only at h <;> subst h <;> decide
  have hstart := takeWhile_intercalate hp.parts
  have hsplit := splitOn_intercalate hp.parts hparts
  -- No part of a proper path is dropped when its text is split.
  have hkeep : ((parts.map String.toList).filter fun part => part != [] && part != ['.']).map
      String.ofList = parts := by
    rw [List.filter_eq_self.2, List.map_map]
    · exact (List.map_congr_left fun part _ => String.ofList_toList).trans (List.map_id _)
    · intro piece hpiece
      obtain ⟨part, hpart, rfl⟩ := List.mem_map.1 hpiece
      rw [← not_isIdle_ofList, String.ofList_toList, (hp.parts part hpart).notIdle]
      rfl
  have hslash : ∀ cs : List Char, Text.splitOn '/' ('/' :: cs) = [] :: Text.splitOn '/' cs :=
    fun cs => Text.splitOn_append '/' [] cs
  -- What is left is the anchor, and each of the three is followed by as many empty pieces.
  rw [toString, if_neg (fun h => hparts h.2), ofString, anchorOf, partsOf, String.toList_append]
  rcases hp.anchor with h | h | h <;> dsimp only at h <;> subst h
  · rw [show "".toList = [] from rfl, List.nil_append, hstart, hsplit, hkeep]
    rfl
  · rw [show "/".toList = ['/'] from rfl, List.singleton_append, hslash, hsplit,
      List.takeWhile_cons_of_pos rfl, hstart, List.filter_cons_of_neg (by decide), hkeep]
    rfl
  · rw [show "//".toList = ['/', '/'] from rfl, List.cons_append, List.singleton_append, hslash,
      hslash, hsplit, List.takeWhile_cons_of_pos rfl, List.takeWhile_cons_of_pos rfl, hstart,
      List.filter_cons_of_neg (by decide), List.filter_cons_of_neg (by decide), hkeep]
    rfl

/-! ## Parents and names -/

theorem parent_child (p : Path) (name : String) : (p.child name).parent = p := by
  rw [parent, child, List.dropLast_concat]

theorem name_child (p : Path) (name : String) : (p.child name).name = name := by
  rw [Path.name, child, List.getLastD_concat]

/-! ## Double dots -/

theorem resolveDots_append (above parts rest : List String) :
    resolveDots above (parts ++ rest) = resolveDots (resolveDots above parts).reverse rest := by
  induction parts generalizing above with
  | nil => rw [List.nil_append, resolveDots, List.reverse_reverse]
  | cons part parts ih =>
    rw [List.cons_append, resolveDots, resolveDots]
    split
    · exact ih _
    · exact ih _

theorem resolveDots_of_not_mem {above parts : List String} (hparts : ".." ∉ parts) :
    resolveDots above parts = above.reverse ++ parts := by
  induction parts generalizing above with
  | nil => rw [resolveDots, List.append_nil]
  | cons part parts ih =>
    rw [List.mem_cons, not_or] at hparts
    rw [resolveDots, if_neg (Ne.symm hparts.1), ih hparts.2, List.reverse_cons, List.append_assoc,
      List.singleton_append]

theorem join_child (p q : Path) (name : String) :
    p.join (q.child name) = (p.join q).child name := by
  unfold join child isAbsolute
  split
  · rfl
  · rw [List.append_assoc]

/-- A name behind a path stays behind what the path comes to. -/
theorem parts_normalize_child {name : String} (hname : name ≠ "..") (cwd : List String) (p : Path) :
    ((p.child name).normalize cwd).parts = (p.normalize cwd).parts ++ [name] := by
  rw [normalize, normalize, join_child]
  dsimp only [child]
  rw [resolveDots_append, resolveDots_of_not_mem (by rwa [List.mem_singleton, eq_comm]),
    List.reverse_reverse]

/-- A double dot behind a path takes back the last of what the path comes to. -/
theorem parts_normalize_child_up (cwd : List String) (p : Path) :
    ((p.child "..").normalize cwd).parts = (p.normalize cwd).parts.dropLast := by
  rw [normalize, normalize, join_child]
  dsimp only [child]
  rw [resolveDots_append, resolveDots, if_pos rfl, resolveDots, List.tail_reverse,
    List.reverse_reverse]

end Path
end SourceDrift
