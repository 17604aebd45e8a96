/-
The diagnostics of findings, file by file.

The findings are gone through once, and each that is shown is put at the end of its file's group.
What comes of it can be told without going through them (`byFile_grouped`): the files are those in
which findings are shown, in the order in which they are first met, and the group of a file has one
diagnostic for each finding that is shown in it, in the order of the findings.

Which findings are shown, and where, goes by the first element that points at a file. It is told
here by the elements alone, and not by the list of mappings that a diagnostic is made from.
-/
import Mathlib.Data.List.Induction
import Mathlib.Data.List.Nodup
import SourceDrift.Finding.Diagnostics

set_option autoImplicit false

namespace SourceDrift

/-- The first mapping that is listed is that of the first element that points at a file. -/
theorem Finding.head?_mappedFrom (es : List Element) (i : Nat) :
    (mappedFrom i es).head? =
      (es.findSome? Element.mapping).map fun m =>
      (i + es.findIdx fun e => e.mapping.isSome, m) := by
  induction es generalizing i with
  | nil => rfl
  | cons e rest ih =>
    rw [mappedFrom, List.findSome?_cons, List.findIdx_cons]
    cases he : e.mapping with
    | some m => simp
    | none =>
      simp only [Option.isSome_none, cond_false, ih (i + 1)]
      -- The index is counted from the elements that are left.
      have hindex : ∀ k, i + 1 + k = i + (k + 1) := fun k => by omega
      simp only [hindex]

namespace Diagnostic

variable {root : Path} {hidden : List String} {f : Finding} {d : Diagnostic} {ds : List Diagnostic}
  {files : List Path}

/-! ## Findings that are shown -/

/-- The file in which a finding is shown: that of its first element that points at one. A finding
whose sources have changed is not shown, nor is one of a hidden rule. -/
def shownIn? (root : Path) (hidden : List String) (f : Finding) : Option Path :=
  if f.sync = .outOfSync ∨ f.check ∈ hidden then none
  else (f.elements.findSome? Element.mapping).map fun m => root.join (Path.ofString m.name)

/-- The diagnostic by which a finding is shown in a file, with the whole range of its first element
that points at one. -/
def shownAs (f : Finding) (file : Path) : Diagnostic :=
  ⟨file, f.fullRange (f.elements.findIdx fun e => e.mapping.isSome : Nat), Text.strip f.description,
    .ofImpact f.impact, f.check⟩

/-- **A finding has a diagnostic exactly if it is shown**, and it is the one by which it is
shown. -/
theorem ofFinding?_eq (root : Path) (hidden : List String) (f : Finding) :
    ofFinding? root hidden f = (shownIn? root hidden f).map (shownAs f) := by
  have hfirst := Finding.head?_mappedFrom f.elements 0
  rw [Nat.zero_add] at hfirst
  unfold ofFinding? shownIn?
  simp only [List.contains_iff_mem]
  by_cases hleft : f.sync = .outOfSync ∨ f.check ∈ hidden
  · simp [hleft]
  · rw [if_neg hleft, if_neg hleft]
    cases hmapped : f.mapped with
    | nil =>
      have hnone : f.elements.findSome? Element.mapping = none := by
        rw [← Finding.mapped, hmapped] at hfirst
        simpa using hfirst.symm
      rw [hnone]
      rfl
    | cons first rest =>
      obtain ⟨i, m⟩ := first
      rw [← Finding.mapped, hmapped] at hfirst
      obtain ⟨m', hm', heq⟩ := Option.map_eq_some_iff.1 hfirst.symm
      cases heq
      rw [hm']
      rfl

/-! ## Groups -/

/-- A file with the diagnostics that are in it. -/
def group (ds : List Diagnostic) (file : Path) : Path × List Diagnostic :=
  (file, ds.filter fun d => d.path = file)

theorem group_append_of_ne {file : Path} (hfile : file ≠ d.path) :
    group (ds ++ [d]) file = group ds file := by
  simp [group, Ne.symm hfile]

theorem group_append_self : group (ds ++ [d]) d.path = (d.path, (group ds d.path).2 ++ [d]) := by
  simp [group]

/-- A diagnostic of a file that has no group yet makes one, behind the others. -/
theorem insert_of_not_mem (hfile : d.path ∉ files) :
    insert d (files.map (group ds)) = files.map (group (ds ++ [d])) ++ [(d.path, [d])] := by
  induction files with
  | nil => rfl
  | cons file rest ih =>
    obtain ⟨hne, hrest⟩ := not_or.1 (mt List.mem_cons.2 hfile)
    rw [List.map_cons, List.map_cons, List.cons_append,
      group_append_of_ne (Ne.symm hne), ← ih hrest]
    rw [group, insert, if_neg (Ne.symm hne)]

/-- A diagnostic of a file that has a group is put at its end. -/
theorem insert_of_mem (hnodup : files.Nodup) (hfile : d.path ∈ files) :
    insert d (files.map (group ds)) = files.map (group (ds ++ [d])) := by
  induction files with
  | nil => exact absurd hfile List.not_mem_nil
  | cons file rest ih =>
    obtain ⟨hother, hrest⟩ := List.nodup_cons.1 hnodup
    rw [List.map_cons, List.map_cons]
    by_cases hd : file = d.path
    · -- The groups behind are of other files.
      subst hd
      have hsame : rest.map (group (ds ++ [d])) = rest.map (group ds) := by
        refine List.map_congr_left fun q hq => group_append_of_ne ?_
        rintro rfl
        exact hother hq
      rw [hsame, group_append_self]
      simp [group, insert]
    · rw [group_append_of_ne hd, ← ih hrest ((List.mem_cons.1 hfile).resolve_left (Ne.symm hd))]
      rw [group, insert, if_neg hd]

/-! ## First occurrences -/

section

variable {α : Type} [DecidableEq α]

/-- An item more is a first occurrence more, unless it has been met. -/
theorem eraseDups_append_singleton (as : List α) (a : α) :
    (as ++ [a]).eraseDups = if a ∈ as then as.eraseDups else as.eraseDups ++ [a] := by
  rw [List.eraseDups_append]
  by_cases ha : a ∈ as
  · simp [ha, List.removeAll]
  · simp [ha, List.removeAll, List.eraseDups_cons]

theorem nodup_eraseDups (as : List α) : as.eraseDups.Nodup := by
  induction as using List.reverseRecOn with
  | nil => exact List.nodup_nil
  | append_singleton as a ih =>
    rw [eraseDups_append_singleton]
    by_cases ha : a ∈ as
    · rw [if_pos ha]
      exact ih
    · rw [if_neg ha]
      refine List.nodup_append.2 ⟨ih, List.nodup_singleton a, fun b hb c hc hbc => ha ?_⟩
      rw [← List.mem_singleton.1 hc, ← hbc]
      exact List.mem_eraseDups.1 hb

end

/-! ## All of them -/

/-- **The groups of diagnostics** are those of their files, in the order in which these are first
met. -/
theorem foldl_insert_eq (ds : List Diagnostic) :
    ds.foldl (fun groups d => insert d groups) [] =
    (ds.map Diagnostic.path).eraseDups.map (group ds) := by
  -- The diagnostics are taken from the front, and the last of them is the one that is put in now.
  induction ds using List.reverseRecOn with
  | nil => rfl
  | append_singleton ds d ih =>
    rw [List.foldl_append, List.foldl_cons, List.foldl_nil, ih, List.map_append, List.map_singleton,
      eraseDups_append_singleton]
    have hnodup := nodup_eraseDups (ds.map Diagnostic.path)
    by_cases hfile : d.path ∈ ds.map Diagnostic.path
    · rw [if_pos hfile, insert_of_mem hnodup (List.mem_eraseDups.2 hfile)]
    · rw [if_neg hfile, insert_of_not_mem (mt List.mem_eraseDups.1 hfile), List.map_append,
        List.map_singleton, group_append_self]
      -- A file that has not been met has no diagnostics so far.
      have hnone : (group ds d.path).2 = [] := by
        refine List.filter_eq_nil_iff.2 fun d' hd' heq => hfile ?_
        rw [← of_decide_eq_true heq]
        exact List.mem_map_of_mem hd'
      rw [hnone, List.nil_append]

/-- Putting a diagnostic into its group loses none and adds none but this. -/
theorem flatMap_insert_perm (d : Diagnostic) (groups : List (Path × List Diagnostic)) :
    ((insert d groups).flatMap Prod.snd).Perm (groups.flatMap Prod.snd ++ [d]) := by
  induction groups with
  | nil => exact .refl _
  | cons g rest ih =>
    obtain ⟨file, ds⟩ := g
    rw [insert]
    split
    · simp only [List.flatMap_cons, List.append_assoc]
      exact List.perm_append_comm.append_left ds
    · simp only [List.flatMap_cons, List.append_assoc]
      exact ih.append_left ds

theorem flatMap_foldl_insert_perm (ds : List Diagnostic) :
    ((ds.foldl (fun groups d => insert d groups) []).flatMap Prod.snd).Perm ds := by
  induction ds using List.reverseRecOn with
  | nil => exact .refl _
  | append_singleton ds d ih =>
    rw [List.foldl_append, List.foldl_cons, List.foldl_nil]
    exact (flatMap_insert_perm d _).trans (ih.append_right [d])

/-- The files of the diagnostics of findings. -/
theorem map_path_shown (fs : List Finding) :
    (fs.filterMap fun f => (shownIn? root hidden f).map (shownAs f)).map Diagnostic.path =
      fs.filterMap (shownIn? root hidden) := by
  rw [List.map_filterMap]
  congr 1
  funext f
  cases shownIn? root hidden f <;> rfl

/-- The diagnostics in a file are those of the findings that are shown in it. -/
theorem filter_path_shown (fs : List Finding) (file : Path) :
    ((fs.filterMap fun f => (shownIn? root hidden f).map (shownAs f)).filter fun d =>
      d.path = file) =
      (fs.filter fun f => shownIn? root hidden f = some file).map (shownAs · file) := by
  induction fs with
  | nil => rfl
  | cons f rest ih =>
    rw [List.filterMap_cons, List.filter_cons]
    cases hshown : shownIn? root hidden f with
    | none => simpa [hshown] using ih
    | some path =>
      by_cases hpath : path = file
      · subst hpath
        simpa [shownAs] using ih
      · simpa [shownAs, hpath] using ih

/-- **Diagnostics are a faithful grouping of findings.** A file has one diagnostic for each finding
that is shown in it, in their order, and there are no others; the files are pairwise different, and
stand in the order in which findings are first shown in them; none of them is there for nothing. -/
theorem byFile_grouped (root : Path) (hidden : List String) (fs : List Finding) :
    byFile root hidden fs =
        ((fs.filterMap (shownIn? root hidden)).eraseDups.map fun file =>
          (file, (fs.filter fun f => shownIn? root hidden f = some file).map (shownAs · file))) ∧
      ((byFile root hidden fs).map Prod.fst).Nodup ∧
      (∀ file ds, (file, ds) ∈ byFile root hidden fs → ds ≠ []) ∧
      ((byFile root hidden fs).flatMap Prod.snd).Perm
        (fs.filterMap fun f => (shownIn? root hidden f).map (shownAs f)) := by
  have hshown : byFile root hidden fs =
      (fs.filterMap fun f => (shownIn? root hidden f).map (shownAs f)).foldl
        (fun groups d => insert d groups) [] := by
    rw [byFile, funext (ofFinding?_eq root hidden)]
  have hgroups : byFile root hidden fs =
      (fs.filterMap (shownIn? root hidden)).eraseDups.map fun file =>
        (file, (fs.filter fun f => shownIn? root hidden f = some file).map (shownAs · file)) := by
    rw [hshown, foldl_insert_eq, map_path_shown]
    exact List.map_congr_left fun file _ => by rw [group, filter_path_shown]
  refine ⟨hgroups, ?_, ?_, ?_⟩
  · rw [hgroups, List.map_map]
    exact (List.map_id _).symm ▸ nodup_eraseDups _
  · intro file ds hmem
    rw [hgroups] at hmem
    obtain ⟨file', hfile, heq⟩ := List.mem_map.1 hmem
    cases heq
    -- A file is among those of a group because a finding is shown in it.
    obtain ⟨f, hf, hin⟩ := List.mem_filterMap.1 (List.mem_eraseDups.1 hfile)
    refine List.ne_nil_of_mem (List.mem_map_of_mem (a := f) (List.mem_filter.2 ⟨hf, ?_⟩))
    exact decide_eq_true hin
  · rw [hshown]
    exact flatMap_foldl_insert_perm _

end Diagnostic
end SourceDrift
