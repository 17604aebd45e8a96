/-
Drift detection from end to end.

Findings are handed in without digests, the sources change, the findings are validated.
What is recorded at the first time is the digest of what each mapping's file read then, if
it could be read; what is compared at the second is the digest of what it reads now. So a
finding is in sync exactly if each of its files could be read at both times with one
digest for the bytes that the finding points at.

The sources of a time are asked to read alike by all names with one key among those that
occur; which names occur is the same at both times, because nothing but digests changes in
between.
-/
import SourceDrift.Proofs.Store.Operations
import SourceDrift.Proofs.Sync.Redigest

set_option autoImplicit false

namespace SourceDrift

/-! ## Findings without digests -/

/-- The members of each mapping that a finding's document holds. -/
def mappingMembers (document : Json) : List (List Json.Member) :=
  match document.field? "elements" with
  | some (.arr elements) => elements.filterMap fun e =>
    match e.field? "source_mapping" with
    | some (.obj members) => some members
    | _ => none
  | _ => []

namespace Store.Incoming

/-- Whether nothing that is handed in gives a digest, under either of its names. -/
def CarriesNoDigest : Incoming → Prop
  | document v => ∀ members ∈ mappingMembers v,
    (Json.lookup "_ext_source_hash" members).isNone ∧ (Json.lookup "source_hash" members).isNone
  | finding f => ∀ m ∈ Sync.mappings f, m.digest = none

instance (item : Incoming) : Decidable item.CarriesNoDigest :=
  match item with
  | document _ => inferInstanceAs (Decidable (∀ _ ∈ _, _))
  | finding _ => inferInstanceAs (Decidable (∀ _ ∈ _, _))

end Store.Incoming

theorem mem_mappingMembers {v : Json} {f : Finding} {m : SourceMapping}
    (hf : Finding.ofJson v = .ok f) (hm : m ∈ Sync.mappings f) :
    ∃ members ∈ mappingMembers v, SourceMapping.ReadFrom members m := by
  obtain ⟨members, rfl, hread⟩ := Finding.ofJson_eq_ok.1 hf
  obtain ⟨e, he, hm⟩ := Sync.mem_mappings.1 hm
  cases hes : f.elements? with
  | none =>
    rw [Finding.elements, hes] at he
    cases he
  | some es =>
    rw [Finding.elements, hes] at he
    obtain ⟨w, hlookup, hw⟩ := Checked.member_eq_some (hes ▸ hread.elements)
    obtain ⟨vs, rfl, hall⟩ := Checked.list_eq_ok.1 hw
    obtain ⟨u, hu, heq⟩ := Checked.exists_of_mem_forall₂ hall he
    obtain ⟨inner, rfl, hinner⟩ := Element.ofJson_eq_ok.1 heq
    obtain ⟨x, hmapping, hx⟩ :=
      Checked.member_eq_some ((Element.mapping?_of_mapping hm).1 ▸ hinner.mapping)
    obtain ⟨ms, rfl, hms⟩ := SourceMapping.ofJson_eq_ok.1 (Checked.nullable_eq_some hx)
    refine ⟨ms, ?_, hms⟩
    simp only [mappingMembers, Json.field?, hlookup]
    exact List.mem_filterMap.2 ⟨_, hu, by simp only [hmapping]⟩

/-- What is read of such a thing has no digest. -/
theorem digest_eq_none {item : Store.Incoming} {f : Finding} (hitem : item.CarriesNoDigest)
    (hf : item.read? = some f) {m : SourceMapping} (hm : m ∈ Sync.mappings f) :
    m.digest = none := by
  cases item with
  | finding g =>
    cases hf
    exact hitem m hm
  | document v =>
    obtain ⟨members, hmem, hread⟩ := mem_mappingMembers (Store.ofJson_of_read hf) hm
    obtain ⟨hfirst, hsecond⟩ := hitem members hmem
    rw [Option.isNone_iff_eq_none] at hfirst hsecond
    have habsent : Json.lookup (SourceMapping.digestKey members) members = none := by
      rw [SourceMapping.digestKey, Checked.keyOf, hfirst]
      exact hsecond
    rcases Checked.member_eq_ok.1 hread.digest with ⟨-, hnone⟩ | ⟨v, a, hlookup, -, -⟩
    · rw [SourceMapping.digest, hnone]
      rfl
    · rw [habsent] at hlookup
      cases hlookup

/-! ## From one time to another -/

namespace Sync

/-- Whether the bytes that a finding points at can be read at both times and have the
digests at the second that they had at the first. -/
def Unaltered (first second : Sources) (root : Path) (f : Finding) : Prop :=
  ∀ m ∈ mappings f, ∃ before after, first.read (m.file root) = some before ∧
    second.read (m.file root) = some after ∧
    Digest.ofSlice before m.start m.length = Digest.ofSlice after m.start m.length

/-- A mapping without a digest that is recorded has the digest of what its file reads. -/
theorem digest_recordMapping (src : Sources) (root : Path) {m : SourceMapping}
    (hm : m.digest = none) :
    (recordMapping src root false m).digest = (src.read (m.file root)).map m.digestIn := by
  unfold recordMapping
  rw [Bool.false_and, if_neg Bool.false_ne_true]
  cases src.read (m.file root) with
  | none => exact hm
  | some bytes => rfl

/-- **A finding recorded at one time is in sync at another exactly if it is unaltered.** -/
theorem verdict_recordFinding (first second : Sources) (root : Path) {f : Finding}
    (hf : ∀ m ∈ mappings f, m.digest = none) :
    verdict second root (recordFinding first root false f) = .inSync ↔
      Unaltered first second root (recordFinding first root false f) := by
  rw [verdict_eq_inSync, Unaltered, mappings_recordFinding]
  simp only [List.forall_mem_map]
  refine forall₂_congr (fun m hm => ?_)
  rw [file_recordMapping, digest_recordMapping first root (hf m hm), digestIn_recordMapping]
  have hofSlice : ∀ bytes, Digest.ofSlice bytes (recordMapping first root false m).start
      (recordMapping first root false m).length = m.digestIn bytes := fun bytes =>
    congrFun (digestIn_recordMapping first root false m) bytes
  simp only [hofSlice]
  cases hbefore : first.read (m.file root) with
  | none =>
    cases second.read (m.file root) with
    | none => simp
    | some after => simp
  | some before =>
    cases second.read (m.file root) with
    | none => simp
    | some after => simp

theorem verdict_cases (src : Sources) (root : Path) (f : Finding) :
    verdict src root f = .outOfSync ↔ ¬verdict src root f = .inSync := by
  unfold verdict
  split <;> decide

end Sync

namespace Store

/-- What the second time makes of a finding of the first: nothing but its state changes,
and the state says whether what it points at is unaltered. -/
structure Detected (first second : Sync.Sources) (root : Path) (f g : Finding) : Prop where
  same : g = f.withSync g.sync
  inSync : g.sync = .inSync ↔ Sync.Unaltered first second root f
  outOfSync : g.sync = .outOfSync ↔ ¬Sync.Unaltered first second root f
  unmapped : Sync.mappings f = [] → g.sync = .inSync
  unedited : (∀ m ∈ Sync.mappings f, ∃ before after, first.read (m.file root) = some before ∧
    second.read (m.file root) = some after ∧
    Digest.slice before m.start (m.start + m.length) =
      Digest.slice after m.start (m.start + m.length)) → g.sync = .inSync

/-- **Drift detection is exact.** Findings without digests are handed in at one time and
validated at another, the store in between left alone. Each of them is then in sync exactly
if the bytes it points at could be read at both times with the same digest. -/
theorem drift_detection_exact {root : Path} {raw : List Incoming} {kept : List Finding}
    {report : Sync.Report} {s₁ s₂ s₃ s₄ : Session}
    (hraw : ∀ item ∈ raw, item.CarriesNoDigest)
    (hingest : ingest root raw s₁ = .ok kept s₂)
    (hstore : s₃.store = s₂.store) (hkey : s₃.host.key root = s₂.host.key root)
    (hvalidate : validate root none s₃ = .ok report s₄)
    (hfirst : (sources s₁.host).Consistent (Sync.files root (get root s₂)))
    (hsecond : (sources s₃.host).Consistent (Sync.files root (get root s₂))) :
    List.Forall₂ (Detected (sources s₁.host) (sources s₃.host) root) (get root s₂)
    (get root s₄) := by
  obtain ⟨hkept, -, hget⟩ := replaceAll_eq_ok hingest
  have hloaded : get root s₃ = get root s₂ := by rw [get, hstore, hkey, ← get]
  rw [validate_eq_ok hvalidate, hloaded, Sync.validate_all_eq_map hsecond]
  have hfiles : Sync.files root (get root s₂) =
      Sync.files root (Finding.distinct (readIncoming raw)) := by
    rw [hget, hkept]
    exact Sync.files_redigested root (Sync.capture_redigested ..)
  -- What is validated is what was recorded when the findings were handed in.
  have hrecorded : get root s₂ = (Finding.distinct (readIncoming raw)).map
      (Sync.recordFinding (sources s₁.host) root false) := by
    rw [hget, hkept, Sync.capture_eq_map false (hfiles ▸ hfirst)]
  rw [List.forall₂_map_right_iff, List.forall₂_same]
  intro g hg
  rw [hrecorded] at hg
  obtain ⟨f, hf, rfl⟩ := List.mem_map.1 hg
  have hdigest : ∀ m ∈ Sync.mappings f, m.digest = none := by
    obtain ⟨item, hitem, hread⟩ := mem_handedIn hf
    exact fun m hm => digest_eq_none (hraw item hitem) hread hm
  have hverdict := Sync.verdict_recordFinding (sources s₁.host) (sources s₃.host) root hdigest
  refine ⟨rfl, hverdict, ?_, fun hnil => ?_, fun hsame => ?_⟩
  · exact (Sync.verdict_cases ..).trans (not_congr hverdict)
  · refine hverdict.2 (fun m hm => ?_)
    rw [hnil] at hm
    cases hm
  · refine hverdict.2 (fun m hm => ?_)
    obtain ⟨before, after, hbefore, hafter, hslice⟩ := hsame m hm
    exact ⟨before, after, hbefore, hafter, congrArg Md5.digest hslice⟩

/-- A document of a finding that points at the first byte of each of two files. -/
def twoFiles : Json :=
  let pointing (name : String) : Json :=
    .obj [("source_mapping", .obj [("filename_relative", .str name), ("length", .int 1)])]
  .obj [("check", .str "reentrancy"),
    ("elements", .arr [pointing "a.sol", pointing "lib/../a.sol"])]

/-- A session with one file, in a workspace with a directory beside it. -/
def sessionWith (bytes : List UInt8) (s : Session) : Session :=
  { s with host := { s.host with
      files := (s.host.files.insert ["w", "lib"] .directory).insert ["w", "a.sol"] (.file bytes) } }

theorem store_sessionWith (bytes : List UInt8) (s : Session) :
    (sessionWith bytes s).store = s.store :=
  rfl

/-- The session before anything is handed in. -/
def freshSession : Session :=
  sessionWith [97, 98] ⟨.empty .always, ⟨⟨[(["w"], .directory)]⟩, ["w"], .plain, .missing, []⟩⟩

/-- The session after the finding has been handed in. -/
def ingested : Session := sessionAfter (ingest ⟨"", []⟩ [.document twoFiles]) freshSession

/-- The session after the second byte has changed. -/
def edited : Session := sessionWith [97, 99] ingested

/-- The session after the finding has been validated. -/
def validated : Session := sessionAfter (validate ⟨"", []⟩ none) edited

/-- A change behind the bytes that a finding points at is not reported. -/
theorem drift_detection_exact_second_byte :
    (get ⟨"", []⟩ validated).map Finding.sync = [.inSync] ∧
      List.Forall₂ (Detected (sources freshSession.host) (sources edited.host) ⟨"", []⟩)
        (get ⟨"", []⟩ ingested) (get ⟨"", []⟩ validated) := by
  obtain ⟨kept, hingest⟩ :
      ∃ kept, ingest ⟨"", []⟩ [.document twoFiles] freshSession = .ok kept ingested :=
    eq_ok_of_answer (by decide +kernel)
  obtain ⟨report, hvalidate⟩ : ∃ report, validate ⟨"", []⟩ none edited = .ok report validated :=
    eq_ok_of_answer (by decide +kernel)
  have hstore : edited.store = ingested.store := store_sessionWith [97, 99] ingested
  have hkey : edited.host.key ⟨"", []⟩ = ingested.host.key ⟨"", []⟩ := by decide +kernel
  have hraw : ∀ item ∈ [Incoming.document twoFiles], item.CarriesNoDigest := by decide +kernel
  have hfirst : (sources freshSession.host).Consistent
      (Sync.files ⟨"", []⟩ (get ⟨"", []⟩ ingested)) := by decide +kernel
  have hsecond : (sources edited.host).Consistent
      (Sync.files ⟨"", []⟩ (get ⟨"", []⟩ ingested)) := by decide +kernel
  exact ⟨by decide +kernel,
    drift_detection_exact hraw hingest hstore hkey hvalidate hfirst hsecond⟩

end Store
end SourceDrift
