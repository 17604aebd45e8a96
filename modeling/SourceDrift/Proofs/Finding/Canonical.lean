/-
What a finding is about stays what it is.

A finding changes in three ways once it has been read: digests are recorded in it, its state
is set, and it is stored and read again. The content leaves out the digests and the state
under all of their names, so the first two do not reach it. The third turns numbers that no
document holds into `null` and may take an extra for the state. The former happens to every
content that is written, the canonical form included; the latter concerns an extra that is
no part of the content.

So the canonical form tells findings apart once and for all, and a list without duplicates
stays one.
-/
import SourceDrift.Finding.Duplicates
import SourceDrift.Proofs.Sync.Redigest

set_option autoImplicit false

namespace SourceDrift

open Checked

/-! ## Digests and states -/

theorem Element.Redigested.content {before after : Element} (h : before.Redigested after) :
    after.content = before.content := by
  rcases h with rfl | ⟨m, digest, hm, rfl⟩
  · rfl
  · have hgiven : before.mapping? = some (some m) := (Element.mapping?_of_mapping hm).1
    have hmapping : (before.withMapping (m.withDigest digest)).mapping?.map
        (Option.map SourceMapping.content) =
          before.mapping?.map (Option.map SourceMapping.content) := by
      rw [hgiven]
      rfl
    rw [Element.content, Element.content, hmapping]
    rfl

/-- **Recording digests leaves the content as it was.** -/
theorem Finding.Redigested.content {before after : Finding} (h : before.Redigested after) :
    after.content = before.content := by
  rcases h with rfl | ⟨es, es', hes, hall, rfl⟩
  · rfl
  · have hmap : es'.map Element.content = es.map Element.content := by
      clear hes
      induction hall with
      | nil => rfl
      | cons he _ ih => rw [List.map_cons, List.map_cons, he.content, ih]
    rw [Finding.content, Finding.content, hes]
    simp only [Option.map_some, hmap]

theorem Finding.Redigested.canonical {before after : Finding} (h : before.Redigested after) :
    after.canonical = before.canonical := by
  rw [Finding.canonical, Finding.canonical, h.content]

theorem Finding.Restated.canonical {before after : Finding} (h : before.Restated after) :
    after.canonical = before.canonical := by
  rcases h with rfl | ⟨state, -, rfl⟩
  · rfl
  · rfl

/-- **Recording keeps the canonical forms**, of all findings or of those that lack digests. -/
theorem Sync.map_canonical_capture (src : Sources) (root : Path) (onlyMissing : Bool)
    (fs : List Finding) :
    (capture src root onlyMissing fs).1.map Finding.canonical = fs.map Finding.canonical :=
  map_eq_of_forall₂ (fun _ _ _ h => h.canonical)
    (capture_redigested src root onlyMissing fs)

/-- **Validating keeps the canonical forms**, whichever file is said to have changed. -/
theorem Sync.map_canonical_validate (src : Sources) (root : Path) (changed : Option Path)
    (fs : List Finding) :
    (validate src root changed fs).1.map Finding.canonical = fs.map Finding.canonical :=
  map_eq_of_forall₂ (fun _ _ _ h => h.canonical)
    (validate_restated src root changed fs)

/-! ## Storing and reading again -/

namespace Json

theorem dropNonFiniteMembers_without (keys : List String) (members : List Member) :
    dropNonFiniteMembers (without keys members) = without keys (dropNonFiniteMembers members) := by
  induction members with
  | nil => rfl
  | cons m rest ih =>
    obtain ⟨k, v⟩ := m
    rw [dropNonFiniteMembers, without_cons, without_cons]
    by_cases hk : k ∈ keys
    · rw [if_pos hk, if_pos hk, ih]
    · rw [if_neg hk, if_neg hk, dropNonFiniteMembers, ih]

/-- Leaving out in two steps leaves out what either names. -/
theorem without_without (keys more : List String) (members : List Member) :
    without keys (without more members) = without (more ++ keys) members := by
  rw [without, without, without, List.filter_filter]
  refine List.filter_congr (fun m _ => ?_)
  rw [Bool.eq_iff_iff, Bool.and_eq_true, Bool.not_eq_true', Bool.not_eq_true', Bool.not_eq_true',
    ← Bool.not_eq_true, ← Bool.not_eq_true, ← Bool.not_eq_true, List.contains_iff_mem,
    List.contains_iff_mem, List.contains_iff_mem, List.mem_append, not_or]
  exact And.comm

/-- A key that does not occur need not be left out. -/
theorem without_congr {keys more : List String} {members : List Member}
    (h : ∀ m ∈ members, m.1 ∈ keys ↔ m.1 ∈ more) :
    without keys members = without more members := by
  refine List.filter_congr (fun m hm => ?_)
  rw [Bool.not_inj_iff, Bool.eq_iff_iff, List.contains_iff_mem, List.contains_iff_mem]
  exact h m hm

end Json

theorem SourceMapping.content_dropNonFinite (m : SourceMapping) :
    m.dropNonFinite.content = m.content.dropNonFinite := by
  simp only [content, dropNonFinite, Json.dropNonFiniteMembers_without]

theorem Element.content_dropNonFinite (e : Element) :
    e.dropNonFinite.content = e.content.dropNonFinite := by
  have hmapping : Option.map SourceMapping.content ∘ Option.map SourceMapping.dropNonFinite =
      Option.map SourceMapping.dropNonFinite ∘ Option.map SourceMapping.content := by
    funext o
    cases o with
    | none => rfl
    | some m => exact congrArg some m.content_dropNonFinite
  simp only [content, dropNonFinite, Option.map_map, hmapping]

namespace Finding

theorem content_stored (f : Finding) : f.stored.content = f.content.stored := by
  have helements : List.map Element.content ∘ List.map Element.dropNonFinite =
      List.map Element.dropNonFinite ∘ List.map Element.content := by
    funext es
    rw [Function.comp, Function.comp, List.map_map, List.map_map]
    exact List.map_congr_left (fun e _ => e.content_dropNonFinite)
  simp only [content, stored, Option.map_map, helements, Json.dropNonFiniteMembers_without]
  rfl

/-- The extras that are read with either name of the state taken out, whichever of the two
the state was looked for under. -/
theorem without_in_sync_of_readFrom {members : List Json.Member} {g : Finding}
    (hg : ReadFrom members g) :
    Json.without ["in_sync"] g.extras = Json.without (names ++ ["in_sync"]) members := by
  rw [hg.extras, Json.without_without]
  refine Json.without_congr (fun m hm => ?_)
  -- The first name is asked for wherever it stands among the members.
  have hlookup : m.1 = "_ext_in_sync" → syncKey members = "_ext_in_sync" := by
    intro hkey
    have hsome : (Json.lookup "_ext_in_sync" members).isSome = true := by
      rw [Option.isSome_iff_ne_none]
      intro hnone
      exact Json.lookup_eq_none_iff.1 hnone (hkey ▸ List.mem_map_of_mem hm)
    rw [syncKey, keyOf, if_pos hsome]
  have hkey : syncKey members = "_ext_in_sync" ∨ syncKey members = "in_sync" := by
    rw [syncKey, keyOf]
    split
    · exact .inl rfl
    · exact .inr rfl
  simp only [fieldKeys, names, List.cons_append, List.nil_append, List.mem_cons, List.not_mem_nil,
    or_false]
  rcases hkey with hkey | hkey
  · rw [hkey]
  · rw [hkey] at hlookup ⊢
    have hne : m.1 ≠ "_ext_in_sync" := fun heq => absurd (hlookup heq) (by decide)
    tauto

/-- A known state is no part of the other members. -/
theorem lookup_members_withSync (f : Finding) {key : String} (hkey : key ≠ "_ext_in_sync") :
    Json.lookup key (f.withSync .inSync).members = Json.lookup key f.members := by
  simp only [members, SyncState.members_eq, Json.lookup_append, Json.lookup_given_ne (Ne.symm hkey)]
  rfl

/-- **What is read again is what was stored**, but for the state and the extras: an extra may be
taken for the state. -/
theorem fields_of_reread {f g : Finding} (hf : f.WellFormed) (hg : ofJson f.document = .ok g) :
    { g with sync? := none, extras := [] } = { f.stored with sync? := none, extras := [] } := by
  obtain ⟨_, heq, hread⟩ := ofJson_eq_ok.1 hg
  cases heq
  -- The finding with its state known is read as it is stored, and differs from this one in
  -- nothing but the state's member.
  have hshown : ¬(f.withSync .inSync).HidesState := by
    rintro ⟨hunknown, -⟩
    cases hunknown
  have hstored := readFrom_members (hf.withSync .inSync) hshown
  have hmember : ∀ {α : Type} (check : Json → Checked α) (key : String), key ≠ "_ext_in_sync" →
      member check key f.members = member check key (f.withSync .inSync).members := by
    intro α check key hkey
    rw [member, member, lookup_members_withSync f hkey]
  have hcheck := Except.ok.inj (hread.check ▸ hmember text "check" (by decide) ▸ hstored.check)
  have hconfidence := Except.ok.inj
    (hread.confidence ▸ hmember text "confidence" (by decide) ▸ hstored.confidence)
  have himpact := Except.ok.inj (hread.impact ▸ hmember text "impact" (by decide) ▸ hstored.impact)
  have hdescription := Except.ok.inj
    (hread.description ▸ hmember text "description" (by decide) ▸ hstored.description)
  have helements := Except.ok.inj
    (hread.elements ▸ hmember (list Element.ofJson) "elements" (by decide) ▸ hstored.elements)
  rw [hcheck, hconfidence, himpact, hdescription, helements]
  rfl

/-- What is read again points at the places of what was stored. -/
theorem mapped_of_reread {f g : Finding} (hf : f.WellFormed) (hg : ofJson f.document = .ok g) :
    g.mapped = f.stored.mapped := by
  have hmapped := congrArg mapped (fields_of_reread hf hg)
  exact hmapped

/-- **What is read again has the content of what was stored**, even where an extra was taken
for the state. -/
theorem content_of_reread {f g : Finding} (hf : f.WellFormed) (hg : ofJson f.document = .ok g) :
    g.content = f.content.stored := by
  obtain ⟨_, heq, hread⟩ := ofJson_eq_ok.1 hg
  cases heq
  have hshown : ¬(f.withSync .inSync).HidesState := by
    rintro ⟨hunknown, -⟩
    cases hunknown
  have hstored := readFrom_members (hf.withSync .inSync) hshown
  have hextras : Json.without ["in_sync"] g.extras =
      Json.without ["in_sync"] (f.withSync .inSync).stored.extras := by
    have hstate : ∀ o, Json.without (names ++ ["in_sync"])
        (Json.given "_ext_in_sync" SyncState.json o) = [] :=
      Json.without_given_mem (by decide) SyncState.json
    rw [without_in_sync_of_readFrom hread, without_in_sync_of_readFrom hstored]
    simp only [members, SyncState.members_eq, Json.without_append, hstate]
    rfl
  -- The rest of the content is made from the fields that are read as they are stored.
  have hcontent : g.content = (f.withSync .inSync).stored.content := by
    rw [content, hextras]
    exact congrArg (fun x : Finding => { x.content with
      extras := Json.without ["in_sync"] (f.withSync .inSync).stored.extras })
      (fields_of_reread hf hg)
  rw [hcontent, content_stored]
  rfl

/-- **What is read again has the canonical form that was stored.** -/
theorem canonical_of_reread {f g : Finding} (hf : f.WellFormed) (hg : ofJson f.document = .ok g) :
    g.canonical = f.canonical := by
  rw [canonical, canonical, content_of_reread hf hg, document_stored]

end Finding
end SourceDrift
