/-
Documents that list findings, and documents that do not.

Findings are listed by a bare list, or by an envelope, in which what is missing or `null` stands for
no findings. Any other document is refused, so that it neither counts as an empty store nor takes
the place of what is stored.

What is missing is told by whether a value counts as given, and not by its kind. So a few documents
more pass for empty that say something else where the findings should be: `false`, a zero, an empty
text, and an empty list or object where the other is asked for. `taken_iff_listing_or_hollow` says
that it is those and no others.
-/
import SourceDrift.Proofs.Store.Rejected
import SourceDrift.Proofs.Workspace.Analysis

set_option autoImplicit false

namespace SourceDrift

namespace Analyzer

variable {document v : Json} {items : List Json} {members results : List Json.Member} {key : String}

/-! ## Values that count as missing -/

/-- Whether a value says something and counts as missing all the same. -/
inductive Hollow : Json → Prop
  | no : Hollow (.bool false)
  | zero : Hollow (.int 0)
  | float {x : Binary64} : x.isZero = true → Hollow (.float x)
  | text : Hollow (.str "")
  | list : Hollow (.arr [])
  | object : Hollow (.obj [])

theorem isTruthy_eq_false : v.isTruthy = false ↔ v = .null ∨ Hollow v := by
  constructor
  · intro h
    cases v with
    | null => exact .inl rfl
    | bool b =>
      cases h
      exact .inr .no
    | int n =>
      have hzero : n = 0 := by simpa [Json.isTruthy] using h
      rw [hzero]
      exact .inr .zero
    | float x => exact .inr (.float (by simpa [Json.isTruthy] using h))
    | str s =>
      have hempty : s = "" := by simpa [Json.isTruthy] using h
      rw [hempty]
      exact .inr .text
    | arr items =>
      cases items with
      | nil => exact .inr .list
      | cons item rest => cases h
    | obj members =>
      cases members with
      | nil => exact .inr .object
      | cons m rest => cases h
  · rintro (rfl | hhollow)
    · rfl
    · cases hhollow with
      | float hzero => rw [Json.isTruthy, hzero]; rfl
      | no | zero | text | list | object => rfl

/-- Whether a field is missing, or there as `null`. -/
def IsAbsent (key : String) (members : List Json.Member) : Prop :=
  Json.lookup key members = none ∨ Json.lookup key members = some .null

/-- An absent field that is there nevertheless is `null`. -/
theorem IsAbsent.eq_null (habsent : IsAbsent key members)
    (hlookup : Json.lookup key members = some v) :
    v = .null := by
  rcases habsent with hnone | hnull
  · rw [hlookup] at hnone
    cases hnone
  · exact Option.some.inj (hlookup.symm.trans hnull)

/-- Nothing that counts as missing says something and is `null` at once. -/
theorem not_hollow_null : ¬Hollow .null := nofun

theorem truthyField?_eq_none :
    truthyField? key members = none ↔
      IsAbsent key members ∨ ∃ v, Json.lookup key members = some v ∧ Hollow v := by
  unfold truthyField? IsAbsent
  cases Json.lookup key members with
  | none => simp
  | some v =>
    have hmissing : Option.filter Json.isTruthy (some v) = none ↔ v = .null ∨ Hollow v := by
      rw [← isTruthy_eq_false, Option.filter_eq_none_iff]
      simp
    rw [hmissing]
    simp

theorem truthyField?_eq_some :
    truthyField? key members = some v ↔ Json.lookup key members = some v ∧ v.isTruthy = true :=
  Option.filter_eq_some_iff

/-! ## Documents -/

/-- Whether a document lists findings. -/
inductive IsListing : Json → List Json → Prop
  | bare {items : List Json} : IsListing (.arr items) items
  | envelope {members results : List Json.Member} {items : List Json} :
      Json.lookup "results" members = some (.obj results) →
      Json.lookup "detectors" results = some (.arr items) → IsListing (.obj members) items
  | noResults {members : List Json.Member} : IsAbsent "results" members →
      IsListing (.obj members) []
  | noDetectors {members results : List Json.Member} :
      Json.lookup "results" members = some (.obj results) → IsAbsent "detectors" results →
      IsListing (.obj members) []

/-- Whether a document lists no findings, but has something in their place that counts as
missing. -/
inductive PassesForEmpty : Json → Prop
  | results {members : List Json.Member} {v : Json} : Json.lookup "results" members = some v →
      Hollow v → v ≠ .obj [] → PassesForEmpty (.obj members)
  | detectors {members results : List Json.Member} {v : Json} :
      Json.lookup "results" members = some (.obj results) →
      Json.lookup "detectors" results = some v → Hollow v → v ≠ .arr [] →
      PassesForEmpty (.obj members)

/-- Whether a document neither lists findings nor passes for empty. -/
structure IsForeign (document : Json) : Prop where
  unlisted : ∀ items, ¬IsListing document items
  notEmpty : ¬PassesForEmpty document

theorem detectorItems_eq_ok :
    detectorItems results = .ok items ↔ Json.lookup "detectors" results = some (.arr items) ∨
      items = [] ∧ (IsAbsent "detectors" results ∨
        ∃ v, Json.lookup "detectors" results = some v ∧ Hollow v ∧ v ≠ .arr []) := by
  unfold detectorItems
  constructor
  · intro h
    cases hfield : truthyField? "detectors" results with
    | none =>
      rw [hfield] at h
      cases h
      rcases truthyField?_eq_none.1 hfield with habsent | ⟨v, hlookup, hhollow⟩
      · exact .inr ⟨rfl, .inl habsent⟩
      · -- An empty list is hollow as well, and it is a listing all the same.
        by_cases hlist : v = .arr []
        · rw [hlist] at hlookup
          exact .inl hlookup
        · exact .inr ⟨rfl, .inr ⟨v, hlookup, hhollow, hlist⟩⟩
    | some v =>
      obtain ⟨hlookup, -⟩ := truthyField?_eq_some.1 hfield
      rw [hfield] at h
      cases v with
      | arr found =>
        cases h
        exact .inl hlookup
      | null | bool _ | int _ | float _ | str _ | obj _ => cases h
  · rintro (hlookup | ⟨rfl, habsent | ⟨v, hlookup, hhollow, -⟩⟩)
    · cases items with
      | nil => rw [truthyField?_eq_none.2 (.inr ⟨_, hlookup, .list⟩)]
      | cons item rest => rw [truthyField?_eq_some.2 ⟨hlookup, rfl⟩]
    · rw [truthyField?_eq_none.2 (.inl habsent)]
    · rw [truthyField?_eq_none.2 (.inr ⟨v, hlookup, hhollow⟩)]

/-- Results that are an object are looked into; if it has no members, there are no findings in it
either. -/
theorem findingItems_of_results (hlookup : Json.lookup "results" members = some (.obj results)) :
    findingItems (.obj members) = detectorItems results := by
  rw [findingItems]
  cases results with
  | nil =>
    rw [truthyField?_eq_none.2 (.inr ⟨_, hlookup, .object⟩)]
    rfl
  | cons m rest => rw [truthyField?_eq_some.2 ⟨hlookup, rfl⟩]

/-- **Findings are taken from listings, and none of them from a document that passes for empty.** -/
theorem findingItems_eq_ok :
    findingItems document = .ok items ↔
      IsListing document items ∨ PassesForEmpty document ∧ items = [] := by
  constructor
  · intro h
    cases document with
    | arr found =>
      cases h
      exact .inl .bare
    | obj members =>
      cases hfield : truthyField? "results" members with
      | none =>
        rw [findingItems, hfield] at h
        cases h
        rcases truthyField?_eq_none.1 hfield with habsent | ⟨v, hlookup, hhollow⟩
        · exact .inl (.noResults habsent)
        · -- An empty object is hollow as well, and there are no detectors in it.
          by_cases hobject : v = .obj []
          · rw [hobject] at hlookup
            exact .inl (.noDetectors hlookup (.inl rfl))
          · exact .inr ⟨.results hlookup hhollow hobject, rfl⟩
      | some v =>
        obtain ⟨hlookup, -⟩ := truthyField?_eq_some.1 hfield
        cases v with
        | obj results =>
          rw [findingItems_of_results hlookup] at h
          rcases detectorItems_eq_ok.1 h with
            hlisted | ⟨rfl, habsent | ⟨v, hdetectors, hhollow, hlist⟩⟩
          · exact .inl (.envelope hlookup hlisted)
          · exact .inl (.noDetectors hlookup habsent)
          · exact .inr ⟨.detectors hlookup hdetectors hhollow hlist, rfl⟩
        | null | bool _ | int _ | float _ | str _ | arr _ =>
          rw [findingItems, hfield] at h
          cases h
    | null | bool _ | int _ | float _ | str _ => cases h
  · rintro (hlisting | ⟨hpasses, rfl⟩)
    · cases hlisting with
      | bare => rfl
      | envelope hlookup hlisted =>
        rw [findingItems_of_results hlookup]
        exact detectorItems_eq_ok.2 (.inl hlisted)
      | noResults habsent => rw [findingItems, truthyField?_eq_none.2 (.inl habsent)]
      | noDetectors hlookup habsent =>
        rw [findingItems_of_results hlookup]
        exact detectorItems_eq_ok.2 (.inr ⟨rfl, .inl habsent⟩)
    · cases hpasses with
      | results hlookup hhollow _ =>
        rw [findingItems, truthyField?_eq_none.2 (.inr ⟨_, hlookup, hhollow⟩)]
      | detectors hlookup hdetectors hhollow hlist =>
        rw [findingItems_of_results hlookup]
        exact detectorItems_eq_ok.2 (.inr ⟨rfl, .inr ⟨_, hdetectors, hhollow, hlist⟩⟩)

/-- A document that passes for empty lists nothing, not even no findings: what stands in it where a
listing has its findings, or nothing or `null`, is one value, and it is none of these. -/
theorem PassesForEmpty.unlisted (h : PassesForEmpty document) (items : List Json) :
    ¬IsListing document items := by
  intro hlisting
  cases h with
  | results hlookup hhollow hobject =>
    cases hlisting with
    | envelope hlookup' _ | noDetectors hlookup' _ =>
      cases hlookup.symm.trans hlookup'
      cases hhollow
      exact hobject rfl
    | noResults habsent =>
      cases habsent.eq_null hlookup
      exact not_hollow_null hhollow
  | detectors hlookup hdetectors hhollow hlist =>
    cases hlisting with
    | envelope hlookup' hdetectors' =>
      cases hlookup.symm.trans hlookup'
      cases hdetectors.symm.trans hdetectors'
      cases hhollow
      exact hlist rfl
    | noResults habsent => cases habsent.eq_null hlookup
    | noDetectors hlookup' habsent =>
      cases hlookup.symm.trans hlookup'
      cases habsent.eq_null hdetectors
      exact not_hollow_null hhollow

theorem IsForeign.findingItems_eq_error (h : IsForeign document) :
    ∃ e, findingItems document = .error e := by
  cases hitems : findingItems document with
  | error e => exact ⟨e, rfl⟩
  | ok items =>
    rcases findingItems_eq_ok.1 hitems with hlisting | ⟨hpasses, -⟩
    · exact absurd hlisting (h.unlisted items)
    · exact absurd hpasses h.notEmpty

/-! ## What a run has left -/

open FileTree in
/-- The findings of a run are listed in the bytes that the analyser leaves. -/
theorem listed_of_leaving {root : Path} {solc : String} {timeout : Int} {h h' : Host}
    {bytes : List UInt8}
    {text : String} {code : Int} (hleaving : (h.tool.analyze (h.key root)).leaving = .file bytes)
    (htext : Utf8.decodeText bytes = .ok text) (hread : Json.read h.room text = .ok document)
    (hanalyze : analyze root (Storage.output root) solc timeout h = .ok (.found code items) h') :
    findingItems document = .ok items := by
  obtain ⟨h₂, hprepare, hcases⟩ := analyze_cases hanalyze
  obtain ⟨out, files, rfl, -, -, hvacant⟩ := vacant_of_prepare (by decide) (by decide) hprepare
  rcases hcases with ⟨reason, hfailed, -⟩ | ⟨place, -, hcollect⟩
  · cases hfailed
  · obtain ⟨-, -, text', document', htext', hread', -, hitems⟩ := collect_eq_found.1 hcollect
    obtain ⟨bytes', hbytes', hdecode'⟩ := readText_eq_ok.1 htext'
    -- What is read has been left by the run, which has made no directory.
    have hleft : (h.tool.analyze (h.key root)).leaving = .file bytes' := by
      refine (leaving_of_readFile (by decide) (by decide) hvacant hbytes').resolve_right ?_
      rintro ⟨hdirectory, -⟩
      cases hleaving.symm.trans hdirectory
    obtain rfl : bytes = bytes' := Leaving.file.inj (hleaving.symm.trans hleft)
    obtain rfl : text = text' := Except.ok.inj (htext.symm.trans hdecode')
    obtain rfl : document = document' := Except.ok.inj (hread.symm.trans hread')
    exact hitems

end Analyzer

namespace Analysis

open Analyzer Store SourceDrift.Action

variable {root : Path} {s : Session} {bytes : List UInt8} {text : String} {document : Json}

/-- Whether an analysis comes to nothing: it does not succeed, memory is as it was, and so are the
files, but for the place of its own document and directories that it makes. -/
structure ComesToNothing (root : Path) (s : Session) : Prop where
  fails : ∀ outcome s', execute root s = .ok outcome s' → outcome.isOk = false
  memory : (sessionAfter (execute root) s).store = s.store
  files : WritesThere root s.host → ∀ outcome s', execute root s = .ok outcome s' →
    ∃ out, out.getLast? = some "analyzer-output.json" ∧
    s.host.files.ChangedIn (· = out) s'.host.files

/-- **A run that leaves a foreign document comes to nothing.** -/
theorem comesToNothing_of_leaving
    (hleaving : (s.host.tool.analyze (s.host.key root)).leaving = .file bytes)
    (htext : Utf8.decodeText bytes = .ok text) (hread : Json.read s.host.room text = .ok document)
    (hforeign : IsForeign document) : ComesToNothing root s := by
  obtain ⟨e, herror⟩ := hforeign.findingItems_eq_error
  -- Whatever its settings are, such a run finds nothing, and so nothing is handed to the store.
  have hunfound : ∀ {solc timeout code items h},
      analyze root (Storage.output root) solc timeout s.host ≠
        .ok (.found code items) h := by
    intro solc timeout code items h hanalyze
    have hitems := listed_of_leaving hleaving htext hread hanalyze
    rw [herror] at hitems
    cases hitems
  refine ⟨fun outcome s' hexecute => ?_, ?_, fun hwrites outcome s' hexecute => ?_⟩
  · obtain ⟨config, result, h, -, hanalyze, hcases⟩ := execute_cases hexecute
    rcases hcases with ⟨code, reason, rfl, rfl, rfl⟩ | ⟨code, items, kept, rfl, -, -⟩
    · rfl
    · exact absurd hanalyze hunfound
  · unfold sessionAfter
    rw [execute_eq]
    cases Settings.found s.host.room s.host.files s.host.cwd root with
    | error e => rfl
    | ok config =>
      dsimp only
      cases hanalyze : analyze root (Storage.output root) config.solcPath config.timeout s.host with
      | error e h => rfl
      | ok result h =>
        cases result with
        | failed code reason => rfl
        | found code items => exact absurd hanalyze hunfound
  · obtain ⟨config, result, h, -, hanalyze, hcases⟩ := execute_cases hexecute
    obtain ⟨hchanged, -, -⟩ := analyze_changes (by decide) (by decide) hwrites hanalyze
    rcases hcases with ⟨code, reason, rfl, rfl, rfl⟩ | ⟨code, items, kept, rfl, -, -⟩
    · exact hchanged
    · exact absurd hanalyze hunfound

/-- **What is taken for findings**: the items that a document lists, and none where it has something
in their place that counts as missing, so that it is read as an empty store. Every other document is
refused; where it is stored findings are said to be corrupt, and a run that leaves it comes to
nothing. -/
theorem taken_iff_listing_or_hollow (document : Json) :
    (∀ items, findingItems document = .ok items ↔
        IsListing document items ∨ PassesForEmpty document ∧ items = []) ∧
      (PassesForEmpty document → (∀ items, ¬IsListing document items) ∧
          ∀ room text, Json.read room text = .ok document →
            Repository.decode room text = .ok []) ∧
        (IsForeign document →
          (∃ e, findingItems document = .error e) ∧
            ∀ bytes text, Utf8.decodeText bytes = .ok text →
              (∀ path h, h.files.Grounded h.cwd → Json.read h.room text = .ok document →
                h.files.readFile h.cwd (Storage.results (Path.ofString path)) = .ok bytes →
                ∃ cause h', Repository.load (Path.ofString path) h =
                  .error (.corruptFindings cause) h') ∧
              ∀ root s, Json.read s.host.room text = .ok document →
                (s.host.tool.analyze (s.host.key root)).leaving = .file bytes →
                ComesToNothing root s) := by
  refine ⟨fun items => findingItems_eq_ok,
    fun hpasses => ⟨hpasses.unlisted, fun room text hread => ?_⟩, fun hforeign => ?_⟩
  · exact Repository.decode_eq_ok.2 ⟨document, [], hread,
      findingItems_eq_ok.2 (.inr ⟨hpasses, rfl⟩), rfl⟩
  obtain ⟨e, herror⟩ := hforeign.findingItems_eq_error
  refine ⟨⟨e, herror⟩, fun bytes text htext =>
    ⟨fun path h hcwd hread hstored => ?_, fun root s hread hleaving => ?_⟩⟩
  · obtain ⟨_, h', hload, ⟨⟨cause, rfl⟩, -⟩ | ⟨⟨⟨_, _, htext', hdeep, -⟩, -⟩, -⟩⟩ :=
      Repository.load_of_rejected (Path.proper_ofString path) hcwd hstored
        (.misshapen htext hread herror)
    · exact ⟨cause, h', hload⟩
    · obtain rfl := Except.ok.inj (htext.symm.trans htext')
      rw [hread] at hdeep
      cases hdeep
  · exact comesToNothing_of_leaving hleaving htext hread hforeign

/-- An empty text in the place of the results passes for no findings, any other is refused, and what
stands in a list inside the results is taken. -/
theorem taken_iff_listing_or_hollow_three_results :
    let empty : Json := .obj [("results", .str "")]
    let other : Json := .obj [("results", .str "x")]
    let listed : Json := .obj [("results", .obj [("detectors", .arr [.int 5])])]
    (findingItems empty = .ok [] ∧ ∀ items, ¬IsListing empty items) ∧
      (∃ e, findingItems other = .error e) ∧ findingItems listed = .ok [.int 5] := by
  intro empty other listed
  obtain ⟨hempty, hpasses, -⟩ := taken_iff_listing_or_hollow empty
  obtain ⟨-, -, hother⟩ := taken_iff_listing_or_hollow other
  obtain ⟨hlisted, -, -⟩ := taken_iff_listing_or_hollow listed
  have hhollow : PassesForEmpty empty := .results rfl .text (by rintro ⟨⟩)
  have hresults : ∀ {v}, Json.lookup "results" [("results", .str "x")] = some v → v = .str "x" :=
    fun hlookup => (Option.some.inj hlookup).symm
  have hforeign : IsForeign (.obj [("results", .str "x")]) := by
    refine ⟨fun items hlisting => ?_, fun hpasses => ?_⟩
    · cases hlisting with
      | envelope hlookup _ | noDetectors hlookup _ => cases hresults hlookup
      | noResults habsent =>
        rcases habsent with hnone | hnull
        · cases hnone
        · cases hresults hnull
    · cases hpasses with
      | results hlookup hhollow _ =>
        cases hresults hlookup
        exact absurd (isTruthy_eq_false.2 (.inr hhollow)) (by decide)
      | detectors hlookup _ _ _ => cases hresults hlookup
  exact ⟨⟨(hempty []).2 (.inr ⟨hhollow, rfl⟩), (hpasses hhollow).1⟩, (hother hforeign).1,
    (hlisted _).2 (.inl (.envelope rfl rfl))⟩

end Analysis
end SourceDrift
