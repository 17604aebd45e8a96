/-
Loading what has been handed in.

What is handed in is stored with digests recorded, and loading reads the stored text back.
Two things stand between the findings that are kept and those that are loaded. A finding
whose state is unknown is stored without it, so that an extra by the name of the state takes
its place; and a link on the way to the workspace's directory may have been replaced by the
file itself. `reload_iff` says that there is nothing else: not a repeated or hidden key, not
a number, not a name or text with unusual characters, not a digest.
-/
import SourceDrift.Proofs.Store.Encoding
import SourceDrift.Proofs.Store.Operations
import SourceDrift.Proofs.Store.Saved
import SourceDrift.Proofs.Sync.Redigest

set_option autoImplicit false

namespace SourceDrift

/-! ## From memory to disk and back -/

namespace Store

/-- Whether what is handed in can have been read from a text, or made by reading: no object
has a key twice. -/
def Incoming.WellFormed : Incoming → Prop
  | document v => v.hasUniqueKeys = true
  | finding f => f.WellFormed

theorem wellFormed_of_read {item : Incoming} {f : Finding} (hitem : item.WellFormed)
    (hf : item.read? = some f) : f.WellFormed := by
  cases item with
  | document v => exact Finding.wellFormed_of_ofJson (ofJson_of_read hf) hitem
  | finding g =>
    cases hf
    exact hitem

/-- **Findings that were handed in are loaded as they are kept**, with their documents and
their states, exactly if none of them hides its state and the workspace's directory is still
where its path leads. -/
theorem reload_iff {path : String} {raw : List Incoming} {kept : List Finding} {s s' : Session}
    (hcwd : s.host.files.Grounded s.host.cwd) (hraw : ∀ item ∈ raw, item.WellFormed)
    (hingest : ingest (Path.ofString path) raw s = .ok kept s') :
    (∃ fs h', Repository.load (Path.ofString path) s'.host = .ok (some fs) h' ∧
        fs.map Finding.document = (get (Path.ofString path) s').map Finding.document ∧
        fs.map Finding.sync = (get (Path.ofString path) s').map Finding.sync) ↔
      (∀ f ∈ get (Path.ofString path) s', ¬f.HidesState) ∧
        s'.host.files.isDirectory? s'.host.cwd (Storage.directory (Path.ofString path)) =
          .ok true := by
  have hroot := Path.proper_ofString path
  generalize Path.ofString path = root at hroot hingest ⊢
  obtain ⟨hkept, hsave, hget⟩ := replaceAll_eq_ok hingest
  -- What is kept was read from what was handed in, with digests put in.
  have hwell : ∀ f ∈ kept, f.WellFormed := by
    intro f hf
    have hall := Sync.capture_redigested (sources s.host) root false
      (Finding.distinct (readIncoming raw))
    rw [← hkept] at hall
    obtain ⟨g, hg, hsame⟩ := Checked.exists_of_mem_forall₂ hall hf
    obtain ⟨item, hitem, hread⟩ := mem_handedIn hg
    exact (wellFormed_of_read (hraw item hitem) hread).redigested hsame
  obtain ⟨text, hencode, hstored⟩ := Repository.stored_of_save hroot hcwd hsave
  obtain ⟨hutf8, hdecode⟩ := Repository.decode_of_encode s'.host.assuredLevels_le_room hwell hencode
  rw [hget]
  constructor
  · rintro ⟨fs, h', hload, hdocuments, -⟩
    -- A finding that hides its state would have come back with another document.
    have hdirectory := Repository.isDirectory_of_load hstored hload
    refine ⟨?_, hdirectory⟩
    rw [Repository.load_of_stored hroot hstored hutf8 hdirectory, hdecode] at hload
    split at hload
    · next gs hread =>
      cases hload
      exact Repository.not_hidesState_of_readFindings hwell hread hdocuments
    · cases hload
  · rintro ⟨hhides, hdirectory⟩
    have hread := Repository.readFindings_document fun f hf => ⟨hwell f hf, hhides f hf⟩
    refine ⟨kept.map Finding.stored, s'.host, ?_, ?_, ?_⟩
    · rw [Repository.load_of_stored hroot hstored hutf8 hdirectory, hdecode, hread]
    · rw [List.map_map]
      exact List.map_congr_left fun f _ => Finding.document_stored f
    · rw [List.map_map]
      exact List.map_congr_left fun f _ => Finding.sync_stored f

/-- A session in a directory with nothing in it. -/
def emptySession : Session :=
  ⟨.empty .always, ⟨⟨[(["w"], .directory)]⟩, ["w"], .plain, .missing, []⟩⟩

/-- A document with both names of the state, of which the second is an extra. -/
def bothNames (state : Json) : Json :=
  .obj [("_ext_in_sync", state), ("in_sync", .int 5)]

/-- The session after such a document has been handed in. -/
def afterBothNames (state : Json) : Session :=
  sessionAfter (ingest (Path.ofString "") [.document (bothNames state)]) emptySession

/-- A state that is unknown is not stored, and the other name of it takes its place; a state
that is known is stored beside it. -/
theorem reload_iff_both_names :
    (¬∃ fs h', Repository.load (Path.ofString "") (afterBothNames .null).host = .ok (some fs) h' ∧
        fs.map Finding.document =
        (get (Path.ofString "") (afterBothNames .null)).map Finding.document ∧
        fs.map Finding.sync = (get (Path.ofString "") (afterBothNames .null)).map Finding.sync) ∧
      ∃ fs h', Repository.load (Path.ofString "") (afterBothNames (.bool true)).host =
      .ok (some fs) h' ∧
        fs.map Finding.document =
          (get (Path.ofString "") (afterBothNames (.bool true))).map Finding.document ∧
        fs.map Finding.sync =
        (get (Path.ofString "") (afterBothNames (.bool true))).map Finding.sync := by
  have hcwd : emptySession.host.files.Grounded emptySession.host.cwd :=
    .down .root ⟨by decide, by decide, by decide⟩ rfl
  have hraw : ∀ state, (bothNames state).hasUniqueKeys = true →
      ∀ item ∈ [Incoming.document (bothNames state)], item.WellFormed := by
    intro state hkeys item hitem
    rw [List.mem_singleton.1 hitem]
    exact hkeys
  constructor
  · obtain ⟨kept, hingest⟩ : ∃ kept, ingest (Path.ofString "") [.document (bothNames .null)]
        emptySession = .ok kept (afterBothNames .null) :=
      eq_ok_of_answer (by decide +kernel)
    rw [reload_iff hcwd (hraw .null (by decide)) hingest]
    exact fun h => absurd h.1 (by decide +kernel)
  · obtain ⟨kept, hingest⟩ : ∃ kept, ingest (Path.ofString "") [.document (bothNames (.bool true))]
        emptySession = .ok kept (afterBothNames (.bool true)) :=
      eq_ok_of_answer (by decide +kernel)
    refine (reload_iff hcwd (hraw (.bool true) (by decide)) hingest).2 ⟨by decide +kernel, ?_⟩
    exact eq_ok_of_toOption (by decide +kernel)

end Store
end SourceDrift
