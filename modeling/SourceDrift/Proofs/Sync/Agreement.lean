/-
When a pass over some findings agrees with a pass over others.

Three agreements, the first two read off what `Pass.lean` says of one finding. A pass over a
list says of a finding what a pass over that finding alone would say, as long as the names in
the list that have a key of the finding's own read like these. A pass told which file has
changed leaves the findings as a pass over everything would, as long as the states before it
were right: what it skips points only at files that still read the same. And two passes over
findings that point alike give the same states, wherever the findings come from.

The first fails without its condition. The key of a path is made from its text, so
that `d/../a.sol` and `a.sol` have one key even where there is no `d` and only one of
them can be opened; whichever is met first then answers for both.
-/
import SourceDrift.Proofs.Sync.Pass

set_option autoImplicit false

namespace SourceDrift.Sync

/-! ## One finding at a time -/

/-- A finding validated alone gets the verdict of its own files, if its names with one key
read alike. -/
theorem validate_singleton {src : Sources} {root : Path} {f : Finding}
    (hagrees : src.AgreesOn (files root [f]) root f) :
    (validate src root none [f]).1 = [f.withSync (verdict src root f)] := by
  have hall := validate_forall₂ src root none [f]
  generalize (validate src root none [f]).1 = gs at hall ⊢
  cases hall with
  | cons hf hnil =>
    cases hnil
    rw [hf hagrees]
    rfl

/-- The digest of a mapping after its file has been asked for: that of what the file
reads, or the one before if it cannot be read. -/
def digestNow (src : Sources) (root : Path) (m : SourceMapping) : Option String :=
  match src.read (m.file root) with
  | some bytes => some (m.digestIn bytes)
  | none => m.digest

theorem digest_recordMapping_all (src : Sources) (root : Path) (m : SourceMapping) :
    (recordMapping src root false m).digest = digestNow src root m := by
  rw [recordMapping, digestNow, Bool.false_and, if_neg Bool.false_ne_true]
  cases src.read (m.file root) <;> rfl

theorem digest_of_recorded {src : Sources} {paths : List Path} {root : Path} {e e' : Element}
    (h : Recorded src paths root false e e') {m : SourceMapping} (hm : e.mapping = some m)
    (hagrees : src.Agrees paths (m.file root)) :
    ∃ m', e'.mapping = some m' ∧ m'.digest = digestNow src root m := by
  have hown : ∀ own, e.mapping = some own → src.Agrees paths (own.file root) := by
    intro own hown
    obtain rfl := Option.some.inj (hm.symm.trans hown)
    exact hagrees
  refine ⟨recordMapping src root false m, ?_, digest_recordMapping_all src root m⟩
  rw [h hown, mapping_recordElement, hm, Option.map_some]

/-- **The cache of a pass does not show** in a finding all of whose names read like the other
names with their keys: a validation gives it the state that it gets alone. And a recording
gives a mapping the digest of what its own name reads, if that name reads like the others
with its key. -/
theorem pass_pointwise (h : Host) (root : Path) (fs : List Finding) :
    List.Forall₂ (fun f g => (Store.sources h).AgreesOn (files root fs) root f →
        (validate (Store.sources h) root none [f]).1 = [g])
        fs (validate (Store.sources h) root none fs).1 ∧
      List.Forall₂ (fun f g => List.Forall₂ (fun e e' => ∀ m, e.mapping = some m →
          (Store.sources h).Agrees (files root fs) (m.file root) →
            ∃ m', e'.mapping = some m' ∧ m'.digest = digestNow (Store.sources h) root m)
          f.elements g.elements)
        fs (capture (Store.sources h) root false fs).1 := by
  constructor
  · have hall := (List.forall₂_and_left _ _).2
      ⟨fun f hf => hf, validate_forall₂ (Store.sources h) root none fs⟩
    refine hall.imp fun f g ⟨hf, hg⟩ hagrees => ?_
    -- Alone, the finding has fewer names, and those agree still.
    have hsub : ∀ p ∈ files root [f], p ∈ files root fs :=
      files_mono fun g hg => by rwa [List.mem_singleton.1 hg]
    rw [validate_singleton fun m hm => (hagrees m hm).mono hsub, hg hagrees]
    rfl
  · refine (capture_forall₂ (Store.sources h) root false fs).imp ?_
    rintro f g ⟨es', rfl, hes⟩
    rw [Finding.elements, Finding.elements]
    generalize f.elements? = given at hes
    cases hes with
    | none => exact .nil
    | some hes => exact hes.imp fun e e' he m hm hagrees => digest_of_recorded he hm hagrees

/-- A world whose current directory is `/w`. -/
def worldOf (entries : List (Place × Node)) : Host :=
  ⟨⟨(["w"], .directory) :: entries⟩, ["w"], .plain, .missing, []⟩

/-- A finding that points at the first byte of a file of the workspace. -/
def pointing (name : String) (digest : Option String) : Finding :=
  let m : SourceMapping :=
    ⟨some 0, some 1, none, some name, none, none, none, some digest, []⟩
  ⟨none, none, none, none, some [⟨none, none, some (some m), none, []⟩], none, []⟩

/-- There is no directory `d`. The names of the first two findings are at odds, and the third
is still given the state and the digest of its own file. -/
theorem pass_pointwise_beside_others :
    let h := worldOf [(["w", "a.sol"], .file [97]), (["w", "b.sol"], .file [98])]
    let fs := [pointing "d/../a.sol" none, pointing "a.sol" none,
      pointing "b.sol" (some (Digest.ofSlice [98] 0 1))]
    fs.map (fun f => decide ((Store.sources h).AgreesOn (files ⟨"", []⟩ fs) ⟨"", []⟩ f)) =
        [false, false, true] ∧
      List.Forall₂ (fun f g => (Store.sources h).AgreesOn (files ⟨"", []⟩ fs) ⟨"", []⟩ f →
          (validate (Store.sources h) ⟨"", []⟩ none [f]).1 = [g])
          fs (validate (Store.sources h) ⟨"", []⟩ none fs).1 ∧
        List.Forall₂ (fun f g => List.Forall₂ (fun e e' => ∀ m, e.mapping = some m →
            (Store.sources h).Agrees (files ⟨"", []⟩ fs) (m.file ⟨"", []⟩) →
              ∃ m', e'.mapping = some m' ∧ m'.digest = digestNow (Store.sources h) ⟨"", []⟩ m)
            f.elements g.elements)
          fs (capture (Store.sources h) ⟨"", []⟩ false fs).1 :=
  ⟨by decide +kernel, pass_pointwise _ _ _⟩

/-- **Two names with one key that read differently are taken for one file.** There is no
directory `d`, so that the first name cannot be opened; the second, which could be, is
then out of sync and gets no digest because of it. -/
theorem pass_confuses_names :
    let h := worldOf [(["w", "a.sol"], .file [97])]
    let fs := [pointing "d/../a.sol" none, pointing "a.sol" (some (Digest.ofSlice [97] 0 1))]
    let gs := [pointing "d/../a.sol" none, pointing "a.sol" none]
    (validate (Store.sources h) ⟨"", []⟩ none fs).1.map Finding.sync ≠
        (fs.flatMap fun f => (validate (Store.sources h) ⟨"", []⟩ none [f]).1.map Finding.sync) ∧
      ((capture (Store.sources h) ⟨"", []⟩ false gs).1.map fun f =>
          (mappings f).map (·.digest)) ≠
        gs.map fun f => (mappings f).map (digestNow (Store.sources h) ⟨"", []⟩) := by
  decide +kernel

/-! ## After a change to one file -/

/-- What a finding's verdict depends on is what its own files read. -/
theorem verdict_congr {src₁ src₂ : Sources} {root : Path} {f : Finding}
    (hread : ∀ m ∈ mappings f, src₁.read (m.file root) = src₂.read (m.file root)) :
    verdict src₁ root f = verdict src₂ root f := by
  have hcurrent : ∀ t ∈ targets root f, isCurrent src₁ t = isCurrent src₂ t := by
    intro t ht
    rw [targets_eq] at ht
    obtain ⟨m, hm, rfl⟩ := List.mem_map.1 ht
    rw [isCurrent, isCurrent, hread m hm]
  have hall : (targets root f).all (isCurrent src₁) = (targets root f).all (isCurrent src₂) := by
    rw [Bool.eq_iff_iff, List.all_eq_true, List.all_eq_true]
    exact forall₂_congr (fun t ht => by rw [hcurrent t ht])
  rw [verdict, verdict, hall]

/-- A finding that is not concerned points at files, and none of them has the key of
the changed one. -/
theorem key_ne_of_not_concerned {src : Sources} {root : Path} {key : String} {f : Finding}
    (hskip : isConcerned src root (some key) f = false) :
    ∀ m ∈ mappings f, src.key (m.file root) ≠ key := by
  intro m hm heq
  have hconcerned : isConcerned src root (some key) f = true := by
    rw [isConcerned, Bool.or_eq_true, List.any_eq_true]
    refine .inr ⟨(m, m.file root), ?_, beq_iff_eq.2 heq⟩
    rw [targets_eq]
    exact List.mem_map_of_mem hm
  rw [hconcerned] at hskip
  cases hskip

theorem withSync_of_sync {f : Finding} {state : SyncState} (hsync : f.sync = state)
    (hknown : state ≠ .unknown) : f.withSync state = f := by
  obtain ⟨check, confidence, impact, description, elements, sync, extras⟩ := f
  cases sync with
  | none => exact absurd hsync.symm hknown
  | some given => rw [Finding.withSync, ← show given = state from hsync]

theorem verdict_ne_unknown (src : Sources) (root : Path) (f : Finding) :
    verdict src root f ≠ .unknown := by
  unfold verdict
  split <;> exact SyncState.noConfusion

/-- **Telling which file has changed loses nothing.** Where only names with the key of
`file` read otherwise than before, and the states are those of a validation of before,
validating for `file` alone leaves the findings that a validation of all would. -/
theorem incremental_eq_full (h₁ h₂ : Host) (root file : Path) (fs : List Finding)
    (hcwd : h₁.cwd = h₂.cwd)
    (hfiles₁ : (Store.sources h₁).Consistent (files root fs))
    (hfiles₂ : (Store.sources h₂).Consistent (files root fs))
    (hsame : ∀ p ∈ files root fs, h₁.key p ≠ h₁.key file →
      (Store.sources h₁).read p = (Store.sources h₂).read p)
    (hstates : fs.map Finding.sync =
      (validate (Store.sources h₁) root none fs).1.map Finding.sync) :
    (validate (Store.sources h₂) root (some file) fs).1 =
      (validate (Store.sources h₂) root none fs).1 := by
  rw [validate_all_eq_map hfiles₁, List.map_map] at hstates
  have hbefore : ∀ f ∈ fs, f.sync = verdict (Store.sources h₁) root f :=
    List.map_inj_left.1 hstates
  rw [validate_eq_map _ hfiles₂, validate_all_eq_map hfiles₂]
  refine List.map_congr_left (fun f hf => ?_)
  rw [validated]
  -- A finding that is passed over reads what it read before, so it has its state already.
  cases hskip : isConcerned (Store.sources h₂) root (some (h₂.key file)) f with
  | true => exact if_pos hskip
  | false =>
    have hread : ∀ m ∈ mappings f, (Store.sources h₁).read (m.file root) =
        (Store.sources h₂).read (m.file root) := by
      intro m hm
      have hne := key_ne_of_not_concerned hskip m hm
      refine hsame _ (mem_files hf hm) ?_
      rw [Host.key, Host.key, hcwd]
      exact hne
    have hsync : f.sync = verdict (Store.sources h₂) root f := by
      rw [hbefore f hf, verdict_congr hread]
    rw [withSync_of_sync hsync (verdict_ne_unknown _ root f)]
    exact if_neg (by rw [Option.map_some]; exact ne_true_of_eq_false hskip)

/-- Two findings that were in sync while the second file held a `b`. -/
def inSyncPair : List Finding :=
  [(pointing "a.sol" (some (Digest.ofSlice [97] 0 1))).withSync .inSync,
    (pointing "./b.sol" (some (Digest.ofSlice [98] 0 1))).withSync .inSync]

/-- The world of the two findings, the second file holding a byte. -/
def pairWorld (byte : UInt8) : Host :=
  worldOf [(["w", "a.sol"], .file [97]), (["w", "b.sol"], .file [byte])]

/-- The second file is edited, and named in another spelling. -/
theorem incremental_eq_full_after_edit :
    ((pairWorld 98).cwd = (pairWorld 99).cwd ∧
      (Store.sources (pairWorld 98)).Consistent (files ⟨"", []⟩ inSyncPair) ∧
      (Store.sources (pairWorld 99)).Consistent (files ⟨"", []⟩ inSyncPair) ∧
      (∀ p ∈ files ⟨"", []⟩ inSyncPair,
        (pairWorld 98).key p ≠ (pairWorld 98).key ⟨"", ["c", "..", "b.sol"]⟩ →
          (Store.sources (pairWorld 98)).read p = (Store.sources (pairWorld 99)).read p) ∧
      inSyncPair.map Finding.sync =
        (validate (Store.sources (pairWorld 98)) ⟨"", []⟩ none inSyncPair).1.map Finding.sync) ∧
    (validate (Store.sources (pairWorld 99)) ⟨"", []⟩ (some ⟨"", ["c", "..", "b.sol"]⟩)
        inSyncPair).1 =
      (validate (Store.sources (pairWorld 99)) ⟨"", []⟩ none inSyncPair).1 := by
  refine (fun h => ⟨h, incremental_eq_full _ _ _ _ _ h.1 h.2.1 h.2.2.1 h.2.2.2.1 h.2.2.2.2⟩) ?_
  decide +kernel

/-! ## Findings that point alike -/

/-- Whether two sources show the same of some paths: their names as the cache sees them, and what
is read there. -/
def Sources.Alike (first second : Sources) (paths : List Path) : Prop :=
  ∀ p ∈ paths, first.key p = second.key p ∧ first.read p = second.read p

instance (first second : Sources) (paths : List Path) : Decidable (first.Alike second paths) :=
  inferInstanceAs (Decidable (∀ p ∈ paths, first.key p = second.key p ∧
    first.read p = second.read p))

theorem Sources.Alike.consistent {first second : Sources} {paths : List Path}
    (h : first.Alike second paths) (hfirst : first.Consistent paths) : second.Consistent paths := by
  intro p hp q hq hkey
  rw [← (h p hp).1, ← (h q hq).1] at hkey
  rw [← (h p hp).2, ← (h q hq).2]
  exact hfirst p hp q hq hkey

/-- Whether a mapping and its file are to one pass what others are to another. -/
structure SameTarget (first second : Sources) (t u : SourceMapping × Path) : Prop where
  key : first.key t.2 = second.key u.2
  read : first.read t.2 = second.read u.2
  digest : t.1.digest = u.1.digest
  digestIn : t.1.digestIn = u.1.digestIn

theorem unchanged_congr {first second : Sources} {ts us : List (SourceMapping × Path)}
    (h : List.Forall₂ (SameTarget first second) ts us) :
    ∀ cache, unchanged first cache ts = unchanged second cache us := by
  induction h with
  | nil => exact fun _ => rfl
  | @cons t u ts us htarget _ ih =>
    intro cache
    obtain ⟨m, p⟩ := t
    obtain ⟨n, q⟩ := u
    obtain ⟨hkey, hread, hdigest, hdigestIn⟩ := htarget
    have hfetch : fetch first cache p = fetch second cache q := by
      unfold fetch
      rw [hkey, hread]
    rw [unchanged, unchanged, hfetch, hdigest, hdigestIn]
    obtain ⟨content, after⟩ := fetch second cache q
    cases content with
    | none => rfl
    | some bytes => simp only [ih]

/-- **States depend on nothing but what the findings point at.** The two passes may start from
other findings, even with other states; their caches hold the same throughout. -/
theorem sync_validate_congr {first second : Sources} {root : Path} {fs gs : List Finding}
    (h : List.Forall₂ (fun f g => List.Forall₂ (SameTarget first second) (targets root f)
      (targets root g)) fs gs) :
    (validate first root none fs).1.map Finding.sync =
      (validate second root none gs).1.map Finding.sync := by
  -- Each finding leaves one cache and one report to both passes, so these are the same throughout.
  have hall : ∀ (cache : Cache) (report : Report),
      (validateFindings first root none cache report fs).1.map Finding.sync =
        (validateFindings second root none cache report gs).1.map Finding.sync := by
    induction h with
    | nil => exact fun _ _ => rfl
    | @cons f g fs gs htargets _ ih =>
      intro cache report
      rw [validateFindings, validateFindings, unchanged_congr htargets, isConcerned, isConcerned,
        if_pos rfl, if_pos rfl]
      obtain ⟨same, after⟩ := unchanged second cache (targets root g)
      dsimp only
      rw [List.map_cons, List.map_cons, ih]
      rfl
  exact hall [] .empty

end SourceDrift.Sync
