/-
Settings that cannot be used.

A file of settings is used if it is text, the text a document, and the document valid wherever it
says anything. A workspace that has no such file, whatever it has in its place, is meant to go by
the default settings, so that nothing is ever stopped by them. `settings_or_default` tells how far
that is so. Four things are failures all the same: a path that is too long to be looked up, bytes
that are no text, and a document with a number that has too many digits, or nested deeper than
there is room for. The first is met before anything is caught, and the others are of kinds that are
not caught.
-/
import SourceDrift.Proofs.Json.Reading
import SourceDrift.Proofs.Sync.Agreement
import SourceDrift.Proofs.Text.Utf8
import SourceDrift.Proofs.Validation
import SourceDrift.Proofs.Workspace.Settings

set_option autoImplicit false

namespace SourceDrift

open Checked

/-! ## Valid documents -/

/-- What a setting has to be: valid if the document has it, and as it is by default if not. -/
def Setting (members : List Json.Member) (key : String) (valid : Json → Prop)
    (byDefault : Prop) : Prop :=
  match Json.lookup key members with
  | some v => valid v
  | none => byDefault

/-- Whether settings are those that the members of a document give. -/
structure Config.Given (members : List Json.Member) (c : Config) : Prop where
  solcPath : Setting members "solc_path" (· = .str c.solcPath) (c.solcPath = "")
  hidden : Setting members "hidden_detectors" (· = .arr (c.hidden.map .str)) (c.hidden = [])
  collapse : Setting members "collapse_policy" (· = .str c.collapse.word) (c.collapse = .always)
  timeout : Setting members "analyzer_timeout_s" (fun v => integer v = .ok c.timeout ∧
    0 < c.timeout)
    (c.timeout = 600)

/-- A field that passes its check, or is left to its default, is a setting. -/
theorem setting_iff {α : Type} (members : List Json.Member) (key : String)
    {check : Json → Checked α}
    {valid : Json → Prop} {a : α} (byDefault : α) (hvalid : ∀ v, check v = .ok a ↔ valid v) :
    (∃ o, member check key members = .ok o ∧ o.getD byDefault = a) ↔
      Setting members key valid (a = byDefault) := by
  unfold Setting
  constructor
  · rintro ⟨o, hmember, rfl⟩
    rcases member_eq_ok.1 hmember with ⟨hnone, rfl⟩ | ⟨v, b, hsome, hcheck, rfl⟩
    · rw [hnone]
      rfl
    · rw [hsome]
      exact (hvalid v).1 hcheck
  · intro hsetting
    cases hlookup : Json.lookup key members with
    | none =>
      rw [hlookup] at hsetting
      exact ⟨none, member_eq_ok.2 (.inl ⟨hlookup, rfl⟩), hsetting.symm⟩
    | some v =>
      rw [hlookup] at hsetting
      exact ⟨some a, member_eq_ok.2 (.inr ⟨v, a, hlookup, (hvalid v).2 hsetting, rfl⟩), rfl⟩

theorem CollapsePolicy.ofJson_eq_ok {v : Json} {policy : CollapsePolicy} :
    ofJson v = .ok policy ↔ v = .str policy.word := by
  constructor
  · intro h
    cases v with
    | str s =>
      rw [ofJson, ofWord?] at h
      by_cases halways : s = "always"
      · rw [if_pos halways] at h
        cases h
        rw [halways]
        rfl
      · rw [if_neg halways] at h
        by_cases hdeclarations : s = "declarations"
        · rw [if_pos hdeclarations] at h
          cases h
          rw [hdeclarations]
          rfl
        · rw [if_neg hdeclarations] at h
          cases h
    | null | bool _ | int _ | float _ | arr _ | obj _ => cases h
  · rintro rfl
    cases policy <;> rfl

theorem Config.seconds_eq_ok {v : Json} {n : Int} : seconds v = .ok n ↔
    integer v = .ok n ∧ 0 < n := by
  unfold seconds
  cases integer v with
  | error issues => simp
  | ok m =>
    dsimp only
    by_cases hm : 0 < m
    · rw [if_pos hm]
      constructor
      · intro h
        cases h
        exact ⟨rfl, hm⟩
      · exact fun h => h.1
    · rw [if_neg hm]
      constructor
      · intro h
        cases h
      · rintro ⟨h, hn⟩
        cases h
        exact absurd hn hm

/-- **A document is one of settings exactly if it is an object that is valid wherever it says
anything.** -/
theorem Config.ofJson_eq_ok {v : Json} {c : Config} :
    ofJson v = .ok c ↔ ∃ members, v = .obj members ∧ Given members c := by
  have hfields : ∀ members, ofJson (.obj members) = .ok c ↔ Given members c := by
    intro members
    have hsolc := setting_iff members "solc_path" default.solcPath
      fun v => (text_eq_ok : text v = .ok c.solcPath ↔ _)
    have hhidden := setting_iff members "hidden_detectors" default.hidden
      fun v => (list_text_eq_ok : list text v = .ok c.hidden ↔ _)
    have hcollapse := setting_iff members "collapse_policy" default.collapse
      fun v => (CollapsePolicy.ofJson_eq_ok : CollapsePolicy.ofJson v = .ok c.collapse ↔ _)
    have htimeout := setting_iff members "analyzer_timeout_s" default.timeout
      fun v => (seconds_eq_ok : seconds v = .ok c.timeout ↔ _)
    rw [ofJson, map_eq_ok]
    constructor
    · rintro ⟨⟨solcPath, hidden, collapse, timeout⟩, hread, rfl⟩
      obtain ⟨hsolcPath, hread⟩ := both_eq_ok.1 hread
      obtain ⟨hhide, hread⟩ := both_eq_ok.1 hread
      obtain ⟨hpolicy, hseconds⟩ := both_eq_ok.1 hread
      exact ⟨hsolc.1 ⟨solcPath, hsolcPath, rfl⟩, hhidden.1 ⟨hidden, hhide, rfl⟩,
        hcollapse.1 ⟨collapse, hpolicy, rfl⟩, htimeout.1 ⟨timeout, hseconds, rfl⟩⟩
    · intro hgiven
      obtain ⟨solcPath, hsolcPath, hsolcPath'⟩ := hsolc.2 hgiven.solcPath
      obtain ⟨hidden, hhide, hhide'⟩ := hhidden.2 hgiven.hidden
      obtain ⟨collapse, hpolicy, hpolicy'⟩ := hcollapse.2 hgiven.collapse
      obtain ⟨timeout, hseconds, hseconds'⟩ := htimeout.2 hgiven.timeout
      refine ⟨(solcPath, hidden, collapse, timeout), ?_, ?_⟩
      · exact both_eq_ok.2 ⟨hsolcPath, both_eq_ok.2 ⟨hhide, both_eq_ok.2 ⟨hpolicy, hseconds⟩⟩⟩
      · dsimp only
        rw [hsolcPath', hhide', hpolicy', hseconds']
  constructor
  · intro h
    cases v with
    | obj members => exact ⟨members, rfl, (hfields members).1 h⟩
    | null | bool _ | int _ | float _ | str _ | arr _ => cases h
  · rintro ⟨members, rfl, hgiven⟩
    exact (hfields members).2 hgiven

/-! ## Settings -/

theorem Json.Problem.isSyntactic_eq_false {problem : Problem} :
    problem.isSyntactic = false ↔ (∃ number, problem = .tooLong number) ∨
    problem.isDepth = true := by
  cases problem with
  | tooLong number => exact ⟨fun _ => .inl ⟨number, rfl⟩, fun _ => rfl⟩
  | tooNested inObject => exact ⟨fun _ => .inr rfl, fun _ => rfl⟩
  | _ => exact ⟨nofun, nofun⟩

namespace Settings

open FileTree

variable {room : Nat} {t : FileTree} {cwd : Place} {root : Path} {c : Config} {e : Failure}

/-- Whether a workspace's file of settings is text that spells a valid document, and what it
says. -/
def Spelled (room : Nat) (t : FileTree) (cwd : Place) (root : Path) (c : Config) : Prop :=
  ∃ bytes text members, t.readFile cwd (Storage.config root) = .ok bytes ∧
    Utf8.decodeText bytes = .ok text ∧ Json.read room text = .ok (.obj members) ∧ c.Given members

theorem ofText_of_given {text : String} {members : List Json.Member}
    (hread : Json.read room text = .ok (.obj members)) (hgiven : c.Given members) :
    ofText room text = .ok c := by
  rw [ofText, hread]
  dsimp only
  rw [Config.ofJson_eq_ok.2 ⟨members, rfl, hgiven⟩]

/-- What a text is taken for if it spells no settings. -/
theorem ofText_eq_ok {text : String} (h : ofText room text = .ok c) :
    (∃ members, Json.read room text = .ok (.obj members) ∧ c.Given members) ∨
    c = Config.default := by
  unfold ofText at h
  cases hread : Json.read room text with
  | error fault =>
    rw [hread] at h
    dsimp only at h
    by_cases hsyntactic : fault.problem.isSyntactic = true
    · rw [if_pos hsyntactic] at h
      cases h
      exact .inr rfl
    · rw [if_neg hsyntactic] at h
      cases h
  | ok v =>
    rw [hread] at h
    dsimp only at h
    cases hvalid : Config.ofJson v with
    | error issues =>
      rw [hvalid] at h
      cases h
      exact .inr rfl
    | ok config =>
      rw [hvalid] at h
      cases h
      obtain ⟨members, rfl, hgiven⟩ := Config.ofJson_eq_ok.1 hvalid
      exact .inl ⟨members, rfl, hgiven⟩

/-- Settings that are spelled out are the ones that a workspace has. -/
theorem found_of_spelled (h : Spelled room t cwd root c) : found room t cwd root = .ok c := by
  obtain ⟨bytes, text, members, hread, htext, hjson, hgiven⟩ := h
  rw [found_of_readFile hread, htext]
  exact ofText_of_given hjson hgiven

theorem spelled_or_default (h : found room t cwd root = .ok c) : Spelled room t cwd root c ∨
    c = Config.default := by
  unfold found at h
  cases hexists : t.exists? cwd (Storage.config root) with
  | error fault =>
    rw [hexists] at h
    cases h
  | ok there =>
    rw [hexists] at h
    cases there with
    | false =>
      cases h
      exact .inr rfl
    | true =>
      dsimp only at h
      cases hread : t.readText cwd (Storage.config root) with
      | ok text =>
        rw [hread] at h
        obtain ⟨bytes, hbytes, htext⟩ := readText_eq_ok.1 hread
        exact (ofText_eq_ok h).imp_left fun ⟨members, hjson, hgiven⟩ =>
          ⟨bytes, text, members, hbytes, htext, hjson, hgiven⟩
      | error fault =>
        rw [hread] at h
        dsimp only at h
        by_cases hsystem : fault.isSystem = true
        · rw [if_pos hsystem] at h
          cases h
          exact .inr rfl
        · rw [if_neg hsystem] at h
          cases h

/-- The settings of a workspace are those of its file, or the default ones where the file spells
none and can be told to. -/
theorem found_eq_ok :
    found room t cwd root = .ok c ↔ Spelled room t cwd root c ∨
      c = Config.default ∧ (∀ other, ¬Spelled room t cwd root other) ∧ ∀ e,
      ¬Unusable room t cwd root e := by
  constructor
  · intro hfound
    have husable : ∀ e, ¬Unusable room t cwd root e := by
      intro e hunusable
      have herror := found_eq_error.2 hunusable
      rw [hfound] at herror
      cases herror
    -- Settings that are spelled are found, so that what was found is what is spelled.
    by_cases hspelled : ∃ other, Spelled room t cwd root other
    · obtain ⟨other, hother⟩ := hspelled
      have hsame := found_of_spelled hother
      rw [hfound] at hsame
      cases hsame
      exact .inl hother
    · have hdefault := (spelled_or_default hfound).resolve_left fun h => hspelled ⟨c, h⟩
      exact .inr ⟨hdefault, fun other h => hspelled ⟨other, h⟩, husable⟩
  · rintro (hspelled | ⟨rfl, hunspelled, husable⟩)
    · exact found_of_spelled hspelled
    · cases hfound : found room t cwd root with
      | error e => exact absurd (found_eq_error.1 hfound) (husable e)
      | ok other =>
        rw [(spelled_or_default hfound).resolve_left (hunspelled other)]

/-- What makes settings unusable is one of four things. -/
theorem Unusable.kinds (h : Unusable room t cwd root e) :
    e = .system .nameTooLong (Storage.config root).toString ∨ (∃ fault, e = .undecodable fault) ∨
      ∃ error, e = .unreadable error ∧
        ((∃ number, error.problem = .tooLong number) ∨ error.problem.isDepth = true) := by
  cases h with
  | path hexists => exact .inl (exists?_eq_error.1 hexists).1
  | bytes hread htext => exact .inr (.inl ⟨_, rfl⟩)
  | unreadable htext hjson hsyntactic =>
    exact .inr (.inr ⟨_, rfl, Json.Problem.isSyntactic_eq_false.1 hsyntactic⟩)

/-- **Loading the settings of a workspace changes nothing, and answers what its file spells, if it
spells a valid document, and the default settings if it does not.** That is so but for four things,
and each of them is raised wherever it is met: a path that is too long, bytes that are no text, a
number with too many digits, and more levels than there is room for. -/
theorem settings_or_default (root : Path) (h : Host) :
    (∀ c h', load root h = .ok c h' ↔ h' = h ∧ (Spelled h.room h.files h.cwd root c ∨
        c = Config.default ∧ (∀ other, ¬Spelled h.room h.files h.cwd root other) ∧
          ∀ e, ¬Unusable h.room h.files h.cwd root e)) ∧
      (∀ e h', load root h = .error e h' ↔ h' = h ∧ Unusable h.room h.files h.cwd root e) ∧
        ∀ e, Unusable h.room h.files h.cwd root e →
          e = .system .nameTooLong (Storage.config root).toString ∨
          (∃ fault, e = .undecodable fault) ∨
            ∃ error, e = .unreadable error ∧
              ((∃ number, error.problem = .tooLong number) ∨ error.problem.isDepth = true) := by
  rw [load_eq]
  refine ⟨fun c h' => ?_, fun e h' => ?_, fun e => Unusable.kinds⟩
  · rw [Action.ofExcept_eq_ok, found_eq_ok, and_comm]
  · rw [Action.ofExcept_eq_error, found_eq_error, and_comm]

/-- A workspace whose file of settings holds some bytes. -/
def settingsWorld (bytes : List UInt8) : Host :=
  Sync.worldOf [(["w", ".slither"], .directory), (["w", ".slither", "config.json"], .file bytes)]

theorem readFile_settingsWorld (bytes : List UInt8) :
    (settingsWorld bytes).files.readFile (settingsWorld bytes).cwd (Storage.config ⟨"", []⟩) =
      .ok bytes := rfl

/-- More brackets than there is room for are no settings. -/
theorem unusable_of_brackets {n : Nat} (hn : Platform.assuredLevels < n) :
    let h := settingsWorld (Utf8.encode (String.ofList (List.replicate n '[')))
    ∃ error, Unusable h.room h.files h.cwd ⟨"", []⟩ (.unreadable error) ∧
      error.problem.isDepth = true := by
  intro h
  have hplain : ∀ c ∈ (String.ofList (List.replicate n '[')).toList, Utf8.IsPlain c := by
    intro c hc
    rw [String.toList_ofList] at hc
    rw [List.eq_of_mem_replicate hc]
    decide
  obtain ⟨error, hread, hdepth⟩ := Json.read_brackets hn
  have htext := readText_eq_ok.2 ⟨_, readFile_settingsWorld _, Utf8.decodeText_encode hplain⟩
  exact ⟨error, .unreadable htext hread (Json.Problem.isSyntactic_eq_false.2 (.inr hdepth)), hdepth⟩

/-- A document that says how long the analyser may take is used, a brace alone is passed over, and
a byte that begins no character and a thousand brackets are failures. -/
theorem settings_or_default_four_files :
    let root : Path := ⟨"", []⟩
    let brackets := String.ofList (List.replicate 1000 '[')
    let timed := settingsWorld (Utf8.encode "\x7b\"analyzer_timeout_s\": 5\x7d")
    let broken := settingsWorld (Utf8.encode "\x7b")
    let garbled := settingsWorld [0xff]
    let nested := settingsWorld (Utf8.encode brackets)
    load root timed = .ok { Config.default with timeout := 5 } timed ∧
      load root broken = .ok Config.default broken ∧
        (∃ fault, load root garbled = .error (.undecodable fault) garbled) ∧
          ∃ error, load root nested = .error (.unreadable error) nested ∧
            error.problem.isDepth = true := by
  intro root brackets timed broken garbled nested
  obtain ⟨htimed, -, -⟩ := settings_or_default root timed
  obtain ⟨hbroken, -, -⟩ := settings_or_default root broken
  obtain ⟨-, hgarbled, -⟩ := settings_or_default root garbled
  obtain ⟨-, hnested, -⟩ := settings_or_default root nested
  refine ⟨(htimed _ _).2 ⟨rfl, ?_⟩, (hbroken _ _).2 ⟨rfl, ?_⟩, ?_, ?_⟩
  · exact found_eq_ok.1 (eq_ok_of_toOption (by decide +kernel))
  · exact found_eq_ok.1 (eq_ok_of_toOption (by decide +kernel))
  · cases htext : Utf8.decodeText [0xff] with
    | ok text =>
      have hnone : (Utf8.decodeText [0xff]).toOption = none := by decide +kernel
      rw [htext] at hnone
      cases hnone
    | error fault =>
      exact ⟨fault, (hgarbled _ _).2 ⟨rfl, .bytes (readFile_settingsWorld _) htext⟩⟩
  · obtain ⟨error, hunusable, hdepth⟩ :=
      unusable_of_brackets (show Platform.assuredLevels < 1000 by decide)
    exact ⟨error, (hnested _ _).2 ⟨rfl, hunusable⟩, hdepth⟩

end Settings
end SourceDrift
