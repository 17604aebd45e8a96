/-
A pass over the findings, with its cache taken out.

`capture` and `validate` thread a cache from finding to finding. The cache answers by
the key of a path, the file is opened by the path itself, and so what a pass does to
one finding may depend on the findings before it. This file says when it does not:
where all names with the keys of a finding's own read like these, the cache answers what
reading would. Where that holds for every finding, a pass is a plain map over them;
`verdict` and `recordFinding` are what the map does.

The condition is on the paths of the given findings only. Over all paths it would be
of no use: every file has a name that is too long to be opened, with the key of a name
that is not.
-/
import SourceDrift.Proofs.Sync.Sweep

set_option autoImplicit false

namespace SourceDrift.Sync

/-! ## The mappings of a finding -/

/-- The mappings that point at files, in order. -/
def mappings (f : Finding) : List SourceMapping := f.mapped.map (·.2)

theorem map_mappedFrom (es : List Element) :
    ∀ i, (Finding.mappedFrom i es).map (·.2) = es.filterMap Element.mapping := by
  induction es with
  | nil => exact fun _ => rfl
  | cons e rest ih =>
    intro i
    rw [Finding.mappedFrom]
    cases he : e.mapping with
    | none => rw [List.filterMap_cons_none he, ih]
    | some m => rw [List.filterMap_cons_some he, List.map_cons, ih]

theorem mappings_eq (f : Finding) : mappings f = f.elements.filterMap Element.mapping :=
  map_mappedFrom f.elements 0

theorem mem_mappings {f : Finding} {m : SourceMapping} :
    m ∈ mappings f ↔ ∃ e ∈ f.elements, e.mapping = some m := by
  rw [mappings_eq, List.mem_filterMap]

theorem targets_eq (root : Path) (f : Finding) :
    targets root f = (mappings f).map fun m => (m, m.file root) := by
  rw [targets, mappings, List.map_map]
  rfl

/-! ## Paths that read alike -/

/-- Whether those of the paths that have the key of a path read like it. -/
def Sources.Agrees (src : Sources) (paths : List Path) (p : Path) : Prop :=
  ∀ q ∈ paths, src.key q = src.key p → src.read q = src.read p

instance (src : Sources) (paths : List Path) (p : Path) : Decidable (src.Agrees paths p) :=
  inferInstanceAs (Decidable (∀ q ∈ paths, src.key q = src.key p → src.read q = src.read p))

/-- Whether those of the paths that have one key read alike. -/
def Sources.Consistent (src : Sources) (paths : List Path) : Prop :=
  ∀ p ∈ paths, ∀ q ∈ paths, src.key p = src.key q → src.read p = src.read q

instance (src : Sources) (paths : List Path) : Decidable (src.Consistent paths) :=
  inferInstanceAs (Decidable (∀ p ∈ paths, ∀ q ∈ paths, src.key p = src.key q →
    src.read p = src.read q))

/-- The files that findings point at. -/
def files (root : Path) (fs : List Finding) : List Path :=
  fs.flatMap fun f => (mappings f).map (·.file root)

theorem Sources.Agrees.mono {src : Sources} {paths fewer : List Path} {p : Path}
    (hp : src.Agrees paths p) (hfewer : ∀ q ∈ fewer, q ∈ paths) : src.Agrees fewer p :=
  fun q hq hkey => hp q (hfewer q hq) hkey

theorem Sources.Consistent.agrees {src : Sources} {paths : List Path} {p : Path}
    (hsrc : src.Consistent paths) (hp : p ∈ paths) : src.Agrees paths p :=
  fun q hq hkey => hsrc q hq p hp hkey

theorem Sources.Consistent.mono {src : Sources} {paths fewer : List Path}
    (hsrc : src.Consistent paths) (hfewer : ∀ p ∈ fewer, p ∈ paths) : src.Consistent fewer :=
  fun p hp q hq hkey => hsrc p (hfewer p hp) q (hfewer q hq) hkey

theorem mem_files {root : Path} {fs : List Finding} {f : Finding} {m : SourceMapping}
    (hf : f ∈ fs) (hm : m ∈ mappings f) : m.file root ∈ files root fs :=
  List.mem_flatMap.2 ⟨f, hf, List.mem_map_of_mem hm⟩

theorem mem_files_of_mem_targets {root : Path} {fs : List Finding} {f : Finding}
    {t : SourceMapping × Path} (hf : f ∈ fs) (ht : t ∈ targets root f) :
    t.2 ∈ files root fs := by
  rw [targets_eq] at ht
  obtain ⟨m, hm, rfl⟩ := List.mem_map.1 ht
  exact mem_files hf hm

theorem files_mono {root : Path} {fs gs : List Finding} (hsub : ∀ f ∈ fs, f ∈ gs) :
    ∀ p ∈ files root fs, p ∈ files root gs := by
  intro p hp
  obtain ⟨f, hf, hp⟩ := List.mem_flatMap.1 hp
  exact List.mem_flatMap.2 ⟨f, hsub f hf, hp⟩

/-! ## What the cache may hold -/

/-- Whether a cache holds only what was read, and that from these paths. -/
def Cache.Holds (src : Sources) (paths : List Path) (cache : Cache) : Prop :=
  ∀ key content, cache.lookup key = some content →
    ∃ p ∈ paths, src.key p = key ∧ src.read p = content

theorem Cache.holds_nil (src : Sources) (paths : List Path) : Cache.Holds src paths [] := by
  intro key content h
  cases h

/-- **The cache answers what reading would**, if all names with the key read alike, and in any
case it keeps to what was read. -/
theorem fetch_eq {src : Sources} {paths : List Path} {cache : Cache} {p : Path}
    (hcache : cache.Holds src paths) (hp : p ∈ paths) :
    ∃ (content : Option (List UInt8)) (after : Cache), fetch src cache p = (content, after) ∧
      after.Holds src paths ∧ (src.Agrees paths p → content = src.read p) := by
  unfold fetch
  cases hfound : cache.lookup (src.key p) with
  | some content =>
    obtain ⟨q, hq, hkey, hread⟩ := hcache _ _ hfound
    exact ⟨content, cache, rfl, hcache, fun hagrees => by rw [← hread, hagrees q hq hkey]⟩
  | none =>
    refine ⟨src.read p, _, rfl, ?_, fun _ => rfl⟩
    intro key content hlookup
    rw [Cache.lookup] at hlookup
    split at hlookup
    · next hkey => exact ⟨p, hp, hkey, Option.some.inj hlookup⟩
    · exact hcache _ _ hlookup

/-! ## Comparing digests -/

/-- Whether a file can be read and still has the digest that is recorded for it. -/
def isCurrent (src : Sources) (t : SourceMapping × Path) : Bool :=
  match src.read t.2 with
  | some bytes => t.1.digest = some (t.1.digestIn bytes)
  | none => false

/-- The state that a finding's files give it. -/
def verdict (src : Sources) (root : Path) (f : Finding) : SyncState :=
  if (targets root f).all (isCurrent src) then .inSync else .outOfSync

/-- A finding is in sync exactly if each of its files can be read with the digest recorded. -/
theorem verdict_eq_inSync {src : Sources} {root : Path} {f : Finding} :
    verdict src root f = .inSync ↔ ∀ m ∈ mappings f, ∃ bytes,
      src.read (m.file root) = some bytes ∧ m.digest = some (m.digestIn bytes) := by
  have hverdict : ∀ b : Bool, (if b then SyncState.inSync else .outOfSync) = .inSync ↔
      b = true := by
    decide
  rw [verdict, hverdict, List.all_eq_true, targets_eq]
  simp only [List.forall_mem_map]
  refine forall₂_congr (fun m _ => ?_)
  rw [isCurrent]
  dsimp only
  cases src.read (m.file root) with
  | none => simp
  | some bytes => simp

theorem unchanged_eq {src : Sources} {paths : List Path} {ts : List (SourceMapping × Path)}
    (hts : ∀ t ∈ ts, t.2 ∈ paths) :
    ∀ {cache : Cache}, cache.Holds src paths →
      ∃ (same : Bool) (after : Cache), unchanged src cache ts = (same, after) ∧
        after.Holds src paths ∧
        ((∀ t ∈ ts, src.Agrees paths t.2) → same = ts.all (isCurrent src)) := by
  induction ts with
  | nil => exact fun hcache => ⟨true, _, rfl, hcache, fun _ => rfl⟩
  | cons t rest ih =>
    intro cache hcache
    obtain ⟨m, path⟩ := t
    rw [List.forall_mem_cons] at hts
    obtain ⟨content, after, hfetch, hafter, hcontent⟩ := fetch_eq hcache hts.1
    -- The first mapping that is not current ends the look; only what was read by then is cached.
    unfold unchanged
    rw [hfetch]
    cases content with
    | none =>
      refine ⟨false, after, rfl, hafter, fun hagrees => ?_⟩
      rw [List.forall_mem_cons] at hagrees
      have hcurrent : isCurrent src (m, path) = false := by rw [isCurrent, ← hcontent hagrees.1]
      rw [List.all_cons, hcurrent, Bool.false_and]
    | some bytes =>
      dsimp only
      by_cases hsame : m.digest = some (m.digestIn bytes)
      · obtain ⟨same, last, heq, hlast, hall⟩ := ih hts.2 hafter
        refine ⟨same, last, by rw [if_pos hsame, heq], hlast, fun hagrees => ?_⟩
        rw [List.forall_mem_cons] at hagrees
        have hcurrent : isCurrent src (m, path) = true := by
          rw [isCurrent, ← hcontent hagrees.1]
          exact decide_eq_true hsame
        rw [List.all_cons, hcurrent, Bool.true_and, hall hagrees.2]
      · refine ⟨false, after, by rw [if_neg hsame], hafter, fun hagrees => ?_⟩
        rw [List.forall_mem_cons] at hagrees
        have hcurrent : isCurrent src (m, path) = false := by
          rw [isCurrent, ← hcontent hagrees.1]
          exact decide_eq_false hsame
        rw [List.all_cons, hcurrent, Bool.false_and]

/-- Whether all names among the paths with a key of a finding's own names read like these. -/
def Sources.AgreesOn (src : Sources) (paths : List Path) (root : Path) (f : Finding) : Prop :=
  ∀ m ∈ mappings f, src.Agrees paths (m.file root)

instance (src : Sources) (paths : List Path) (root : Path) (f : Finding) :
    Decidable (src.AgreesOn paths root f) :=
  inferInstanceAs (Decidable (∀ m ∈ mappings f, src.Agrees paths (m.file root)))

/-- The finding as a validation leaves it that sees its own files. -/
def validated (src : Sources) (root : Path) (changed : Option String) (f : Finding) : Finding :=
  if isConcerned src root changed f then f.withSync (verdict src root f) else f

theorem validateFindings_eq {src : Sources} {root : Path} {paths : List Path}
    (changed : Option String) {fs : List Finding} (hfs : ∀ p ∈ files root fs, p ∈ paths) :
    ∀ {cache : Cache} (report : Report), cache.Holds src paths →
      List.Forall₂ (fun f g => src.AgreesOn paths root f → g = validated src root changed f)
        fs (validateFindings src root changed cache report fs).1 := by
  induction fs with
  | nil => exact fun _ _ => .nil
  | cons f rest ih =>
    intro cache report hcache
    have hrest : ∀ p ∈ files root rest, p ∈ paths := fun p hp =>
      hfs p (files_mono (fun _ => List.mem_cons_of_mem _) p hp)
    -- The induction is on the findings; the cache goes on from one to the next and holds what it
    -- says.
    rw [validateFindings]
    by_cases hconcerned : isConcerned src root changed f = true
    · have htargets : ∀ t ∈ targets root f, t.2 ∈ paths := fun t ht =>
        hfs _ (mem_files_of_mem_targets List.mem_cons_self ht)
      obtain ⟨same, after, heq, hafter, hsame⟩ := unchanged_eq htargets hcache
      rw [if_pos hconcerned, heq]
      refine .cons (fun hagrees => ?_) (ih hrest _ hafter)
      have hall : ∀ t ∈ targets root f, src.Agrees paths t.2 := by
        rw [targets_eq]
        exact fun t ht => by
          obtain ⟨m, hm, rfl⟩ := List.mem_map.1 ht
          exact hagrees m hm
      rw [validated, if_pos hconcerned, verdict, hsame hall]
    · rw [if_neg hconcerned]
      refine .cons (fun _ => ?_) (ih hrest _ hcache)
      rw [validated, if_neg hconcerned]

theorem eq_map_of_forall₂ {α β : Type} {r : α → β → Prop} {f : α → β} {xs : List α} {ys : List β}
    (h : List.Forall₂ r xs ys) (hr : ∀ x ∈ xs, ∀ y, r x y → y = f x) : ys = xs.map f := by
  induction h with
  | nil => rfl
  | cons hxy _ ih =>
    rw [List.forall_mem_cons] at hr
    rw [List.map_cons, hr.1 _ hxy, ← ih hr.2]

theorem Sources.Consistent.agreesOn {src : Sources} {root : Path} {fs : List Finding}
    (hsrc : src.Consistent (files root fs)) {f : Finding} (hf : f ∈ fs) :
    src.AgreesOn (files root fs) root f :=
  fun _ hm => hsrc.agrees (mem_files hf hm)

/-- **A validation gives a finding concerned the verdict of its own files**, if the names in
the list that have a key of its own read like these. -/
theorem validate_forall₂ (src : Sources) (root : Path) (changed : Option Path) (fs : List Finding) :
    List.Forall₂ (fun f g => src.AgreesOn (files root fs) root f →
        g = validated src root (changed.map src.key) f)
      fs (validate src root changed fs).1 :=
  validateFindings_eq _ (fun _ hp => hp) .empty (Cache.holds_nil src _)

/-- Where all names with one key read alike a validation is a map. -/
theorem validate_eq_map {src : Sources} {root : Path} (changed : Option Path) {fs : List Finding}
    (hsrc : src.Consistent (files root fs)) :
    (validate src root changed fs).1 = fs.map (validated src root (changed.map src.key)) :=
  eq_map_of_forall₂ (validate_forall₂ src root changed fs) fun _ hf _ hg => hg (hsrc.agreesOn hf)

/-- Without a changed file every finding is concerned. -/
theorem validate_all_eq_map {src : Sources} {root : Path} {fs : List Finding}
    (hsrc : src.Consistent (files root fs)) :
    (validate src root none fs).1 = fs.map fun f => f.withSync (verdict src root f) := by
  rw [validate_eq_map none hsrc]
  rfl

/-! ## Recording digests -/

/-- The mapping with the digest of what its file reads, if it can be read and a digest
is asked for. -/
def recordMapping (src : Sources) (root : Path) (onlyMissing : Bool) (m : SourceMapping) :
    SourceMapping :=
  if onlyMissing && m.digest.isSome then m
  else
    match src.read (m.file root) with
    | some bytes => m.withDigest (m.digestIn bytes)
    | none => m

/-- The element with its digest recorded, if it points at a file. -/
def recordElement (src : Sources) (root : Path) (onlyMissing : Bool) (e : Element) : Element :=
  match e.mapping with
  | none => e
  | some m => e.withMapping (recordMapping src root onlyMissing m)

/-- The finding with its digests recorded. -/
def recordFinding (src : Sources) (root : Path) (onlyMissing : Bool) (f : Finding) : Finding :=
  { f with elements? := f.elements?.map (List.map (recordElement src root onlyMissing)) }

theorem withMapping_self {e : Element} {m : SourceMapping} (hm : e.mapping = some m) :
    e.withMapping m = e := by
  obtain ⟨name, kind, mapping, details, extras⟩ := e
  rw [Element.mapping, Option.filter_eq_some_iff] at hm
  have hgiven : mapping = some (some m) := by
    cases mapping with
    | none => cases hm.1
    | some given => rw [show given = some m from hm.1]
  rw [Element.withMapping, hgiven]

/-- Whether an element is another as a recording leaves it that sees the element's own file,
if the names with the key of that file read alike. -/
def Recorded (src : Sources) (paths : List Path) (root : Path) (onlyMissing : Bool)
    (e e' : Element) : Prop :=
  (∀ m, e.mapping = some m → src.Agrees paths (m.file root)) →
    e' = recordElement src root onlyMissing e

/-- Whether a recording writes a digest for a mapping: one is asked for, and the file can
be read. -/
def isRecorded (src : Sources) (root : Path) (onlyMissing : Bool) (m : SourceMapping) : Bool :=
  !(onlyMissing && m.digest.isSome) && (src.read (m.file root)).isSome

/-- Whether an element is another as a recording leaves it, and counts as it should, if the
names with the key of the element's own file read alike. -/
def RecordedCounted (src : Sources) (paths : List Path) (root : Path) (onlyMissing : Bool)
    (e e' : Element) (count : Nat) : Prop :=
  (∀ m, e.mapping = some m → src.Agrees paths (m.file root)) →
    e' = recordElement src root onlyMissing e ∧
      count = e.mapping.toList.countP (isRecorded src root onlyMissing)

theorem RecordedCounted.recorded {src : Sources} {paths : List Path} {root : Path}
    {onlyMissing : Bool} {e e' : Element} {count : Nat}
    (h : RecordedCounted src paths root onlyMissing e e' count) :
    Recorded src paths root onlyMissing e e' :=
  fun hagrees => (h hagrees).1

theorem step_recorded {src : Sources} {root : Path} {paths : List Path} (onlyMissing : Bool)
    {e : Element} (he : ∀ m, e.mapping = some m → m.file root ∈ paths) :
    Step src root onlyMissing (Cache.Holds src paths)
      (RecordedCounted src paths root onlyMissing) e := by
  intro cache hcache
  unfold captureElement RecordedCounted recordElement
  cases hm : e.mapping with
  | none => exact ⟨e, 0, cache, rfl, hcache, fun _ => ⟨rfl, rfl⟩⟩
  | some m =>
    rw [Option.toList_some, List.countP_singleton]
    unfold captureMapping recordMapping isRecorded
    cases hskip : onlyMissing && m.digest.isSome with
    | true =>
      -- Nothing is read, and nothing is written.
      simp only [hskip, if_true, withMapping_self hm]
      exact ⟨e, 0, cache, rfl, hcache, fun _ => ⟨rfl, rfl⟩⟩
    | false =>
      obtain ⟨content, after, hfetch, hafter, hcontent⟩ := fetch_eq hcache (he m hm)
      simp only [hskip, Bool.false_eq_true, if_false, hfetch]
      cases content with
      | none =>
        refine ⟨e, 0, after, rfl, hafter, fun hagrees => ?_⟩
        rw [← hcontent (hagrees m rfl)]
        exact ⟨(withMapping_self hm).symm, rfl⟩
      | some bytes =>
        refine ⟨_, 1, after, rfl, hafter, fun hagrees => ?_⟩
        rw [← hcontent (hagrees m rfl)]
        exact ⟨rfl, rfl⟩

/-- What the elements of a finding are recorded as, the finding itself is. -/
theorem eq_recordFinding {src : Sources} {root : Path} {paths : List Path} {onlyMissing : Bool}
    {f : Finding} {es' : Option (List Element)} (hagrees : src.AgreesOn paths root f)
    (hes : Option.Rel (List.Forall₂ (Recorded src paths root onlyMissing)) f.elements? es') :
    { f with elements? := es' } = recordFinding src root onlyMissing f := by
  rw [Sources.AgreesOn, mappings_eq, Finding.elements] at hagrees
  rw [recordFinding]
  generalize f.elements? = given at hes hagrees ⊢
  cases hes with
  | none => rfl
  | some hall =>
    rw [eq_map_of_forall₂ hall fun e he e' hrecorded => hrecorded fun m hm =>
      hagrees m (List.mem_filterMap.2 ⟨e, he, hm⟩)]
    rfl

theorem capture_recorded (src : Sources) (root : Path) (onlyMissing : Bool) (fs : List Finding) :
    Swept (SweptFinding (RecordedCounted src (files root fs) root onlyMissing)) fs
      (capture src root onlyMissing fs).1 (capture src root onlyMissing fs).2 := by
  refine capture_swept fs (Cache.holds_nil src _) fun f hf e he => step_recorded onlyMissing ?_
  exact fun m hm => mem_files hf (mem_mappings.2 ⟨e, he, hm⟩)

/-- **A recording gives an element the digest of its own file**, if the names in the list that
have the key of that file read like it. -/
theorem capture_forall₂ (src : Sources) (root : Path) (onlyMissing : Bool) (fs : List Finding) :
    List.Forall₂ (fun f g => ∃ es', g = { f with elements? := es' } ∧
        Option.Rel (List.Forall₂ (Recorded src (files root fs) root onlyMissing)) f.elements? es')
      fs (capture src root onlyMissing fs).1 := by
  refine (capture_recorded src root onlyMissing fs).forall₂.imp fun f g ⟨count, hf⟩ => ?_
  rcases hf with ⟨hnone, rfl, -⟩ | ⟨es, es', hes, rfl, hall⟩
  · exact ⟨none, by rw [← hnone], by rw [hnone]; exact .none⟩
  · refine ⟨some es', rfl, ?_⟩
    rw [hes]
    exact .some (hall.forall₂.imp fun _ _ ⟨_, h⟩ => h.recorded)

/-- Where all names with one key read alike a recording is a map. -/
theorem capture_eq_map {src : Sources} {root : Path} (onlyMissing : Bool) {fs : List Finding}
    (hsrc : src.Consistent (files root fs)) :
    (capture src root onlyMissing fs).1 = fs.map (recordFinding src root onlyMissing) :=
  eq_map_of_forall₂ (capture_forall₂ src root onlyMissing fs)
    fun _ hf _ ⟨_, hg, hes⟩ => hg.trans (eq_recordFinding (hsrc.agreesOn hf) hes)

/-- Where all names with one key read alike, what a recording answers is how many mappings ask for
a digest and have a file that can be read. -/
theorem count_capture {src : Sources} {root : Path} (onlyMissing : Bool) {fs : List Finding}
    (hsrc : src.Consistent (files root fs)) :
    (capture src root onlyMissing fs).2 =
      (fs.flatMap mappings).countP (isRecorded src root onlyMissing) := by
  refine (capture_recorded src root onlyMissing fs).eq_countP fun f hf g count hswept => ?_
  have hagrees := hsrc.agreesOn hf
  rw [Sources.AgreesOn, mappings_eq, Finding.elements] at hagrees
  rw [mappings_eq, Finding.elements]
  rcases hswept with ⟨hnone, -, rfl⟩ | ⟨es, es', hes, -, hall⟩
  · rw [hnone]
    rfl
  · rw [hes, Option.getD_some] at hagrees ⊢
    rw [List.filterMap_eq_flatMap_toList]
    exact hall.eq_countP fun e he _ _ hrecorded =>
      (hrecorded fun m hm => hagrees m (List.mem_filterMap.2 ⟨e, he, hm⟩)).2

/-! ## What a recording leaves alone -/

theorem file_recordMapping (src : Sources) (root : Path) (onlyMissing : Bool)
    (m : SourceMapping) : (recordMapping src root onlyMissing m).file root = m.file root := by
  unfold recordMapping
  split
  · rfl
  · split <;> rfl

theorem digestIn_recordMapping (src : Sources) (root : Path) (onlyMissing : Bool)
    (m : SourceMapping) : (recordMapping src root onlyMissing m).digestIn = m.digestIn := by
  unfold recordMapping
  split
  · rfl
  · split <;> rfl

theorem isMapped_recordMapping (src : Sources) (root : Path) (onlyMissing : Bool)
    (m : SourceMapping) : (recordMapping src root onlyMissing m).isMapped = m.isMapped := by
  unfold recordMapping
  split
  · rfl
  · split <;> rfl

theorem mapping_recordElement (src : Sources) (root : Path) (onlyMissing : Bool) (e : Element) :
    (recordElement src root onlyMissing e).mapping =
      e.mapping.map (recordMapping src root onlyMissing) := by
  unfold recordElement
  cases hm : e.mapping with
  | none => exact hm
  | some m =>
    have hmapped : m.isMapped = true := by
      rw [Element.mapping, Option.filter_eq_some_iff] at hm
      exact hm.2
    change Option.filter _ (some (recordMapping src root onlyMissing m)) = some _
    rw [Option.filter_eq_some_iff, isMapped_recordMapping]
    exact ⟨rfl, hmapped⟩

theorem mappings_recordFinding (src : Sources) (root : Path) (onlyMissing : Bool) (f : Finding) :
    mappings (recordFinding src root onlyMissing f) =
      (mappings f).map (recordMapping src root onlyMissing) := by
  have helements : (recordFinding src root onlyMissing f).elements =
      f.elements.map (recordElement src root onlyMissing) := by
    rw [Finding.elements, Finding.elements, recordFinding]
    cases f.elements? <;> rfl
  rw [mappings_eq, mappings_eq, helements, List.filterMap_map, List.map_filterMap]
  congr 1
  funext e
  exact mapping_recordElement src root onlyMissing e

end SourceDrift.Sync
