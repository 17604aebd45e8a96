/-
The settings that a workspace has.

Reading settings looks at one file and changes nothing. Whatever the file is, there are settings,
but for four things: a path too strange to be looked up, bytes that are no text, and a document
with a number too long to be read, or nested deeper than there is room for.
-/
import SourceDrift.Proofs.FileTree.Removal
import SourceDrift.Proofs.Host.Actions
import SourceDrift.Workspace.Settings

set_option autoImplicit false

namespace SourceDrift.Settings

open FileTree SourceDrift.Action

variable {room : Nat} {t : FileTree} {cwd : Place} {root : Path} {e : Failure}

/-- The settings that a workspace has in a tree, or why there are none. -/
def found (room : Nat) (t : FileTree) (cwd : Place) (root : Path) : Except Failure Config :=
  match t.exists? cwd (Storage.config root) with
  | .error e => .error e
  | .ok false => .ok Config.default
  | .ok true =>
    match t.readText cwd (Storage.config root) with
    | .ok text => ofText room text
    | .error e => if e.isSystem then .ok Config.default else .error e

/-- **Loading settings reads them off the tree.** -/
theorem load_eq (root : Path) (h : Host) :
    load root h = Action.ofExcept (found h.room h.files h.cwd root) h := by
  unfold load found Host.exists? Host.readText
  have hexists := query_eq_ofExcept (fun t cwd => t.exists? cwd (Storage.config root)) h
  cases hfound : h.files.exists? h.cwd (Storage.config root) with
  | error e =>
    rw [hfound] at hexists
    exact bind_of_error hexists
  | ok found =>
    rw [hfound] at hexists
    rw [bind_of_ok hexists]
    cases found with
    | false => rfl
    | true =>
      have hread := query_eq_ofExcept (fun t cwd => t.readText cwd (Storage.config root)) h
      rw [if_pos rfl]
      cases htext : h.files.readText h.cwd (Storage.config root) with
      | ok text =>
        rw [htext] at hread
        rw [bind_of_ok (catching_of_ok hread)]
        exact bind_of_ok (show (get : Action Host) h = .ok h h from rfl)
      | error e =>
        rw [htext] at hread
        dsimp only
        cases he : e.isSystem with
        | true =>
          rw [bind_of_ok (catching_of_error hread he), if_pos rfl]
          rfl
        | false =>
          rw [bind_of_error (catching_of_uncaught hread he), if_neg Bool.false_ne_true]
          rfl

/-- Settings that can be read as bytes depend on these alone. -/
theorem found_of_readFile {contents : List UInt8}
    (hread : t.readFile cwd (Storage.config root) = .ok contents) :
    found room t cwd root =
      match Utf8.decodeText contents with
      | .ok text => ofText room text
      | .error fault => .error (.undecodable fault) := by
  have hthere : t.exists? cwd (Storage.config root) = .ok true :=
    test_eq_true.2 ⟨_, readFile_eq_ok.1 hread, rfl⟩
  unfold found readText
  rw [hthere, hread]
  dsimp only
  cases Utf8.decodeText contents with
  | ok text => rfl
  | error fault => rfl

/-- Why a workspace has no settings, not even the default ones. -/
inductive Unusable (room : Nat) (t : FileTree) (cwd : Place) (root : Path) : Failure → Prop
  | path {e : Failure} : t.exists? cwd (Storage.config root) = .error e → Unusable room t cwd root e
  | bytes {contents : List UInt8} {fault : Utf8.Fault} :
      t.readFile cwd (Storage.config root) = .ok contents →
      Utf8.decodeText contents = .error fault → Unusable room t cwd root (.undecodable fault)
  | unreadable {text : String} {error : Json.ReadError} :
      t.readText cwd (Storage.config root) = .ok text → Json.read room text = .error error →
      error.problem.isSyntactic = false → Unusable room t cwd root (.unreadable error)

theorem ofText_eq_error {text : String} :
    ofText room text = .error e ↔ ∃ error, Json.read room text = .error error ∧
      error.problem.isSyntactic = false ∧ e = .unreadable error := by
  unfold ofText
  cases Json.read room text with
  | error fault =>
    cases hsyntactic : fault.problem.isSyntactic with
    | true => simp [hsyntactic]
    | false =>
      dsimp only
      rw [hsyntactic, if_neg Bool.false_ne_true]
      constructor
      · intro herror
        cases herror
        exact ⟨fault, rfl, hsyntactic, rfl⟩
      · rintro ⟨_, heq, -, rfl⟩
        cases heq
        rfl
  | ok v =>
    dsimp only
    split <;> simp

/-- What is there can be read as bytes, or the system refuses. -/
theorem isSystem_of_readText {node : Node} (hthere : t.status cwd (Storage.config root) = .ok node)
    (hread : t.readText cwd (Storage.config root) = .error e) :
    e.isSystem = true ∨ ∃ contents fault, t.readFile cwd (Storage.config root) = .ok contents ∧
      Utf8.decodeText contents = .error fault ∧ e = .undecodable fault := by
  unfold readText readFile at hread
  unfold readFile
  rw [hthere] at hread ⊢
  cases node with
  | file contents =>
    dsimp only at hread ⊢
    cases htext : Utf8.decodeText contents with
    | ok text =>
      rw [htext] at hread
      cases hread
    | error fault =>
      rw [htext] at hread
      cases hread
      exact .inr ⟨contents, fault, rfl, htext, rfl⟩
  | directory | link target =>
    cases hread
    exact .inl rfl

/-- **When there are no settings.** Nothing else that may be in the place of the settings, and
nothing that a document of settings may hold, is a failure. -/
theorem found_eq_error : found room t cwd root = .error e ↔ Unusable room t cwd root e := by
  constructor
  · intro herror
    unfold found at herror
    cases hexists : t.exists? cwd (Storage.config root) with
    | error fault =>
      rw [hexists] at herror
      cases herror
      exact .path hexists
    | ok there =>
      rw [hexists] at herror
      cases there with
      | false => cases herror
      | true =>
        obtain ⟨node, hthere, -⟩ := test_eq_true.1 hexists
        dsimp only at herror
        cases hread : t.readText cwd (Storage.config root) with
        | ok text =>
          rw [hread] at herror
          obtain ⟨fault, hjson, hsyntactic, rfl⟩ := ofText_eq_error.1 herror
          exact .unreadable hread hjson hsyntactic
        | error fault =>
          rw [hread] at herror
          dsimp only at herror
          -- A file that is there fails to be read as a system error, or for its bytes.
          rcases isSystem_of_readText hthere hread with hsystem | ⟨contents, _, hbytes, htext, rfl⟩
          · rw [if_pos hsystem] at herror
            cases herror
          · cases herror
            exact .bytes hbytes htext
  · intro hunusable
    cases hunusable with
    | path hexists =>
      unfold found
      rw [hexists]
    | bytes hread htext => rw [found_of_readFile hread, htext]
    | unreadable htext hjson hsyntactic =>
      obtain ⟨contents, hread, hdecode⟩ := readText_eq_ok.1 htext
      rw [found_of_readFile hread, hdecode]
      exact ofText_eq_error.2 ⟨_, hjson, hsyntactic, rfl⟩

/-! ## Settings that stay -/

section

variable {d : Place} {n : Nat} {node : Node}

end

end SourceDrift.Settings
