/-
Settings that have been saved.

Every setting is written out, in ASCII, so that its text comes back as it was whatever the strings
hold, and all of it is valid. What is read after settings have been saved is thus these settings,
and saving them again writes the same text in the same place. One thing has no text at all, which is
a number of seconds with too many digits; it is met when the rest has been written, and then the
settings of before are gone.
-/
import SourceDrift.Proofs.FileTree.Written
import SourceDrift.Proofs.Host.Replace
import SourceDrift.Proofs.Store.Encoding
import SourceDrift.Proofs.Workspace.Fallback

set_option autoImplicit false

namespace SourceDrift

variable {c : Config}

/-! ## The text of settings -/

/-- Settings have a text exactly if their number of seconds has one. -/
theorem Config.isWritable_document (c : Config) :
    c.document.isWritable = Numeral.isShowable c.timeout := by
  have hhidden : Json.areWritable (c.hidden.map .str) = true := by
    rw [Json.areWritable_iff, List.forall_mem_map]
    exact fun _ _ => rfl
  simp [document, Json.isWritable, Json.membersWritable, hhidden]

theorem Config.hasUniqueKeys_document (c : Config) : c.document.hasUniqueKeys = true := by
  have hhidden : Json.haveUniqueKeys (c.hidden.map .str) = true := by
    rw [Json.haveUniqueKeys_iff, List.forall_mem_map]
    exact fun _ _ => rfl
  simp [document, Json.hasUniqueKeys, Json.membersHaveUniqueKeys, hhidden]

/-- There is always room for settings. -/
theorem Config.levels_document (c : Config) : c.document.levels ≤ Platform.assuredLevels := by
  have hhidden : Json.itemLevels (c.hidden.map .str) ≤ 1 := by
    rw [Json.itemLevels_le_iff, List.forall_mem_map]
    exact fun _ _ => Nat.le_refl 1
  simp only [document, Json.levels, Json.memberLevels, Platform.assuredLevels]
  omega

namespace Settings

open FileTree SourceDrift.Action

variable {root p : Path} {h h' : Host} {written : String}

/-- **Settings are read off their own text**, unless no time is allowed at all. -/
theorem ofText_text {room : Nat} (hroom : Platform.assuredLevels ≤ room) (hseconds : 0 < c.timeout)
    (hshown : Numeral.isShowable c.timeout = true) : ofText room (text c) = .ok c := by
  have hwritable : c.document.isWritable = true := by rw [Config.isWritable_document, hshown]
  have hread : Json.read room (text c) = .ok c.document :=
    Json.read_render Json.Spacing.isBlank_indented c.hasUniqueKeys_document hwritable
      (Nat.le_trans c.levels_document hroom)
  exact ofText_of_given hread ⟨rfl, rfl, rfl, rfl, hseconds⟩

/-! ## Writing settings -/

/-- Makes the directory for a workspace's files and writes a text as its settings. -/
def put (root : Path) (written : String) : Action Unit := do
  Host.makeDirectories (Storage.directory root)
  Host.writeText (Storage.config root) written

/-- Whether the directory for a workspace's files can be made, and its file of settings written. -/
def Storable (h : Host) (root : Path) : Prop :=
  ∃ h₁ bytes files, Host.makeDirectories (Storage.directory root) h = .ok () h₁ ∧
    h₁.files.writeFile h₁.cwd (Storage.config root) bytes = .ok files

/-- Whether a text stands in a workspace's file of settings, and would stand there again if it were
put there again. -/
structure Stands (h : Host) (root : Path) (written : String) : Prop where
  file : h.files.readFile h.cwd (Storage.config root) = .ok (Utf8.encode written)
  again : put root written h = .ok () h

theorem put_eq_ok {u : Unit} : put root written h = .ok u h' ↔ ∃ h₁ files,
    Host.makeDirectories (Storage.directory root) h = .ok () h₁ ∧
      h₁.files.writeFile h₁.cwd (Storage.config root) (Utf8.encode written) = .ok files ∧
        h' = { h₁ with files := files } := by
  rw [put, bind_eq_ok]
  constructor
  · rintro ⟨⟨⟩, h₁, hmake, hwrite⟩
    obtain ⟨files, hfiles, rfl⟩ := change_eq_ok.1 hwrite
    exact ⟨h₁, files, hmake, hfiles, rfl⟩
  · rintro ⟨h₁, files, hmake, hfiles, rfl⟩
    exact ⟨(), h₁, hmake, change_eq_ok.2 ⟨files, hfiles, rfl⟩⟩

theorem exists_put (written : String) : (∃ h', put root written h = .ok () h') ↔
    Storable h root := by
  constructor
  · rintro ⟨h', hput⟩
    obtain ⟨h₁, files, hmake, hfiles, -⟩ := put_eq_ok.1 hput
    exact ⟨h₁, _, files, hmake, hfiles⟩
  · rintro ⟨h₁, bytes, _, hmake, hfiles⟩
    obtain ⟨files, hfiles⟩ := exists_writeFile hfiles (Utf8.encode written)
    exact ⟨_, put_eq_ok.2 ⟨h₁, files, hmake, hfiles, rfl⟩⟩

/-- **A text that has been put down stands.** The directory stays where it is when the file is
written, and so does everything on the way to the file. -/
theorem stands_of_put {u : Unit} (hcwd : Grounded h.files h.cwd)
    (hput : put root written h = .ok u h') :
    Stands h' root written := by
  obtain ⟨h₁, files, hmake, hwrite, rfl⟩ := put_eq_ok.1 hput
  obtain ⟨made, hmade, rfl⟩ := Host.makeDirectories_eq_ok.1 hmake
  have hcwd₁ : Grounded made h.cwd := hcwd.of_makeDirectories hmade
  obtain ⟨hcwd', hdirectory⟩ :=
    isDirectory_of_writeFile hcwd₁ hwrite (isDirectory_of_makeDirectories hcwd hmade)
  have hsame : Host.makeDirectories (Storage.directory root) { h with files := files } =
      .ok () { h with files := files } :=
    Host.makeDirectories_eq_ok.2 ⟨files, makeDirectories_of_isDirectory _ hcwd' hdirectory, rfl⟩
  have hanew : files.writeFile h.cwd (Storage.config root) (Utf8.encode written) = .ok files :=
    (writeFile_writeFile hcwd₁ hwrite _).trans hwrite
  exact ⟨readFile_of_writeFile hcwd₁ hwrite, put_eq_ok.2 ⟨_, files, hsame, hanew, rfl⟩⟩

/-- Saving puts down the text of the settings, or as much of it as comes before a number that
cannot be shown. -/
theorem save_eq (root : Path) (c : Config) :
    save root c =
      if Numeral.isShowable c.timeout then (do
        put root (text c)
        pure (Storage.config root))
      else (do
        put root (textBeforeSeconds c)
        throw .unshowable) := by
  have hparent : (Storage.config root).parent = Storage.directory root := Path.parent_child _ _
  unfold save put
  rw [hparent, c.isWritable_document]
  split
  · simp only [bind_assoc]
  · simp only [bind_assoc]

theorem save_eq_ok : save root c h = .ok p h' ↔
    Numeral.isShowable c.timeout = true ∧ put root (text c) h = .ok () h' ∧
    p = Storage.config root := by
  rw [save_eq]
  by_cases hshown : Numeral.isShowable c.timeout = true
  · rw [if_pos hshown, bind_eq_ok]
    constructor
    · rintro ⟨⟨⟩, h₁, hput, hpure⟩
      cases hpure
      exact ⟨hshown, hput, rfl⟩
    · rintro ⟨-, hput, rfl⟩
      exact ⟨(), h', hput, rfl⟩
  · rw [if_neg hshown, bind_eq_ok]
    constructor
    · rintro ⟨_, _, -, hthrow⟩
      cases hthrow
    · rintro ⟨hshown', -⟩
      exact absurd hshown' hshown

/-- **Settings that have been saved are loaded.** They can be saved if the directory can be made and
the file can be written, whatever the strings hold, unless their number of seconds has too many
digits to be shown; that is a failure, and the file has the text up to that number then. Where they
have been saved, their text is in the file, loading answers them, and saving them again changes
nothing. -/
theorem saved_settings_loaded (root : Path) (c : Config) (h : Host) (hcwd : Grounded h.files h.cwd)
    (hseconds : 0 < c.timeout) :
    ((∃ p h', save root c h = .ok p h') ↔
        Storable h root ∧ Numeral.isShowable c.timeout = true) ∧
      (∀ p h', save root c h = .ok p h' →
        p = Storage.config root ∧ Host.readText p h' = .ok (text c) h' ∧ load root h' = .ok c h' ∧
          save root c h' = .ok p h') ∧
        (Storable h root → Numeral.isShowable c.timeout = false →
          ∃ h', save root c h = .error .unshowable h' ∧ Stands h' root (textBeforeSeconds c)) := by
  refine ⟨?_, ?_, ?_⟩
  · constructor
    · rintro ⟨p, h', hsave⟩
      obtain ⟨hshown, hput, -⟩ := save_eq_ok.1 hsave
      exact ⟨(exists_put _).1 ⟨h', hput⟩, hshown⟩
    · rintro ⟨hstorable, hshown⟩
      obtain ⟨h', hput⟩ := (exists_put (text c)).2 hstorable
      exact ⟨_, h', save_eq_ok.2 ⟨hshown, hput, rfl⟩⟩
  · intro p h' hsave
    obtain ⟨hshown, hput, rfl⟩ := save_eq_ok.1 hsave
    have hstands := stands_of_put hcwd hput
    have htext : Utf8.decodeText (Utf8.encode (text c)) = .ok (text c) :=
      Json.decodeText_render Json.Spacing.isPlain_indented _
    have hfound : found h'.room h'.files h'.cwd root = .ok c := by
      rw [found_of_readFile hstands.file, htext]
      exact ofText_text h'.assuredLevels_le_room hseconds hshown
    refine ⟨rfl, ?_, ?_, save_eq_ok.2 ⟨hshown, hstands.again, rfl⟩⟩
    · exact query_eq_ok.2 ⟨readText_eq_ok.2 ⟨_, hstands.file, htext⟩, rfl⟩
    · rw [load_eq]
      exact ofExcept_eq_ok.2 ⟨hfound, rfl⟩
  · intro hstorable hshown
    -- The text up to the seconds is in the file by then, so that the host has changed.
    obtain ⟨h', hput⟩ := (exists_put (textBeforeSeconds c)).2 hstorable
    refine ⟨h', ?_, stands_of_put hcwd hput⟩
    rw [save_eq, hshown, if_neg Bool.false_ne_true, bind_of_ok hput]
    rfl

/-- Settings with text that has to be escaped, a rule twice and a number beyond every fixed width,
saved behind a link. -/
theorem saved_settings_loaded_behind_link :
    let root : Path := ⟨"", ["w"]⟩
    let world := Sync.worldOf [(["w", "v"], .directory), (["w", "w"], .directory),
      (["w", "w", ".slither"], .link "../v")]
    let c : Config := ⟨"é\r\n\"𝄞\\", ["", "a", "a"], .declarations, 1208925819614629174706176⟩
    ∃ h', save root c world = .ok (Storage.config root) h' ∧ load root h' = .ok c h' ∧
      save root c h' = .ok (Storage.config root) h' := by
  intro root world c
  have hgrounded : Grounded world.files world.cwd :=
    .down .root ⟨by decide, by decide, by decide⟩ rfl
  have hstorable : Storable world root := ⟨world, [], _, rfl, rfl⟩
  obtain ⟨hsaves, hsaved, -⟩ := saved_settings_loaded root c world hgrounded (by decide)
  obtain ⟨p, h', hsave⟩ := hsaves.2 ⟨hstorable, by decide +kernel⟩
  obtain ⟨rfl, -, hload, hagain⟩ := hsaved p h' hsave
  exact ⟨h', hsave, hload, hagain⟩

/-- Settings with more seconds than can be shown. -/
def endlessSettings : Config := { Config.default with timeout := .ofNat (Nat.pow 10 4300) }

/-- A workspace whose settings give the analyser five seconds. -/
def briefWorld : Host := settingsWorld (Utf8.encode "\x7b\"analyzer_timeout_s\": 5\x7d")

/-- **Settings that allow for too many seconds are not saved**, and the default ones are found
instead of those that were there. -/
theorem endless_settings_are_lost :
    let root : Path := ⟨"", []⟩
    0 < endlessSettings.timeout ∧ Storable briefWorld root ∧
      load root briefWorld = .ok { Config.default with timeout := 5 } briefWorld ∧
      ∃ h', save root endlessSettings briefWorld = .error .unshowable h' ∧
        load root h' = .ok Config.default h' := by
  intro root
  obtain ⟨⟨⟩, hput⟩ := eq_ok_of_answers (show
    (put root (textBeforeSeconds endlessSettings)).answers briefWorld = true by decide +kernel)
  have hlong : Numeral.isShowable endlessSettings.timeout ≠ true := by decide +kernel
  refine ⟨by decide +kernel, (exists_put _).1 ⟨_, hput⟩, ?_,
    (put root (textBeforeSeconds endlessSettings)).after briefWorld, ?_, ?_⟩
  · rw [load_eq]
    exact ofExcept_eq_ok.2 ⟨eq_ok_of_toOption (by decide +kernel), rfl⟩
  · rw [save_eq, if_neg hlong, bind_of_ok hput]
    rfl
  · rw [load_eq]
    exact ofExcept_eq_ok.2 ⟨eq_ok_of_toOption (by decide +kernel), rfl⟩

end Settings
end SourceDrift
