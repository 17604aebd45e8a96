/-
The text that stores findings loses nothing, where there is one.

Between a list of findings and what a later load makes of it stand the writer of documents,
the bytes of a file, a reader of text that unifies line ends, the reader of documents and
the search for the list of findings in one. `text_layer_lossless` takes these together: the
documents come out as they went in, in order and with their keys in order.

There is none of findings in which a value that is kept as it came goes too deep, or in which an
integer is too long to be shown. What goes no deeper can be read again in whatever room there is.

A document holds no number but finite ones, because the others are dropped when a finding is
written. So the words for the others stand in a text inside of strings only.
-/
import SourceDrift.Proofs.Finding.Content
import SourceDrift.Proofs.Json.Keys
import SourceDrift.Proofs.Json.Plain
import SourceDrift.Proofs.Json.Tokens
import SourceDrift.Store.Repository

set_option autoImplicit false

namespace SourceDrift

/-! ## Documents hold finite numbers -/

theorem Json.areWritable_iff {items : List Json} :
    areWritable items = true ↔ ∀ v ∈ items, v.isWritable = true := by
  induction items with
  | nil => exact ⟨fun _ _ hv => absurd hv List.not_mem_nil, fun _ => rfl⟩
  | cons v rest ih => rw [areWritable, Bool.and_eq_true, ih, List.forall_mem_cons]

theorem Finding.dump_eq_ok {f : Finding} {document : Json} :
    f.dump = .ok document ↔ f.document.isShallowFinding = true ∧ document = f.document := by
  unfold dump
  cases f.document.isShallowFinding <;> simp [eq_comm]

namespace Repository

variable {fs : List Finding} {text : String} {room : Nat} {documents : List Json}

theorem dumpAll_cons_eq_ok {f : Finding} :
    dumpAll (f :: fs) = .ok documents ↔
      ∃ document rest, f.dump = .ok document ∧ dumpAll fs = .ok rest ∧
      documents = document :: rest := by
  rw [dumpAll]
  cases f.dump with
  | error e => simp
  | ok document =>
    cases dumpAll fs with
    | error e => simp
    | ok rest => simp [eq_comm]

/-- **All findings can be put down** if none goes too deep. -/
theorem dumpAll_eq_ok : dumpAll fs = .ok documents ↔
    (∀ f ∈ fs, f.document.isShallowFinding = true) ∧ documents = fs.map Finding.document := by
  induction fs generalizing documents with
  | nil =>
    constructor
    · intro hdump
      cases hdump
      exact ⟨fun _ hf => absurd hf List.not_mem_nil, rfl⟩
    · rintro ⟨-, rfl⟩
      rfl
  | cons f rest ih =>
    rw [dumpAll_cons_eq_ok, List.forall_mem_cons, List.map_cons]
    simp only [Finding.dump_eq_ok, ih]
    constructor
    · rintro ⟨_, _, ⟨hf, rfl⟩, ⟨hrest, rfl⟩, hdocuments⟩
      exact ⟨⟨hf, hrest⟩, hdocuments⟩
    · rintro ⟨⟨hf, hrest⟩, hdocuments⟩
      exact ⟨_, _, ⟨hf, rfl⟩, ⟨hrest, rfl⟩, hdocuments⟩

/-- **Findings have a text** if none goes too deep and all their integers can be shown. -/
theorem encode_eq_ok : encode fs = .ok text ↔
    (∀ f ∈ fs, f.document.isShallowFinding = true ∧ f.document.isWritable = true) ∧
      (Json.arr (fs.map Finding.document)).render .indented = text := by
  have hwritable : (Json.arr (fs.map Finding.document)).isWritable = true ↔
      ∀ f ∈ fs, f.document.isWritable = true := by
    rw [Json.isWritable, Json.areWritable_iff, List.forall_mem_map]
  rw [forall₂_and, ← hwritable, encode]
  cases hdump : dumpAll fs with
  | error e =>
    have hdeep : ¬∀ f ∈ fs, f.document.isShallowFinding = true := fun hshallow => by
      rw [dumpAll_eq_ok.2 ⟨hshallow, rfl⟩] at hdump
      cases hdump
    simp [hdeep]
  | ok documents =>
    obtain ⟨hshallow, rfl⟩ := dumpAll_eq_ok.1 hdump
    rw [and_assoc, and_iff_right hshallow]
    by_cases hall : (Json.arr (fs.map Finding.document)).isWritable = true
    · simp [hall]
    · simp [hall]

/-- **The documents of findings are read from the text that stores them**, in whatever room there
is. -/
theorem items_of_encode (hroom : Platform.assuredLevels ≤ room)
    (hkeys : ∀ f ∈ fs, f.document.hasUniqueKeys = true) (hencode : encode fs = .ok text) :
    Utf8.decodeText (Utf8.encode text) = .ok text ∧
      (readDocument room text >>= itemsOf) = .ok (fs.map Finding.document) := by
  obtain ⟨hall, rfl⟩ := encode_eq_ok.1 hencode
  refine ⟨Json.decodeText_render Json.Spacing.isPlain_indented _, ?_⟩
  have hunique : (Json.arr (fs.map Finding.document)).hasUniqueKeys = true := by
    rw [Json.hasUniqueKeys, Json.haveUniqueKeys_iff, List.forall_mem_map]
    exact hkeys
  have hwritable : (Json.arr (fs.map Finding.document)).isWritable = true := by
    rw [Json.isWritable, Json.areWritable_iff, List.forall_mem_map]
    exact fun f hf => (hall f hf).2
  have hlevels : (Json.arr (fs.map Finding.document)).levels ≤ room := by
    refine Json.levels_le_of_isShallowFinding hroom ?_
    rw [List.forall_mem_map]
    exact fun f hf => (hall f hf).1
  have hread := Json.read_render Json.Spacing.isBlank_indented hunique hwritable hlevels
  rw [readDocument, hread]
  rfl

variable {gs : List Finding}

theorem readFindings_cons_eq_ok {v : Json} {rest : List Json} :
    readFindings (v :: rest) = .ok gs ↔
      ∃ f fs, Finding.ofJson v = .ok f ∧ readFindings rest = .ok fs ∧ gs = f :: fs := by
  rw [readFindings]
  cases Finding.ofJson v with
  | error issues => simp
  | ok f =>
    cases readFindings rest with
    | error e => simp
    | ok fs => simp [eq_comm]

/-- Findings are read one for one. -/
theorem readFindings_eq_ok {vs : List Json} :
    readFindings vs = .ok gs ↔ List.Forall₂ (fun v g => Finding.ofJson v = .ok g) vs gs := by
  induction vs generalizing gs with
  | nil =>
    rw [readFindings, List.forall₂_nil_left_iff]
    simp [eq_comm]
  | cons v rest ih =>
    rw [readFindings_cons_eq_ok, List.forall₂_cons_left_iff]
    simp only [ih]

/-- **Decoding an encoding reads the documents of the findings.** -/
theorem decode_of_encode (hroom : Platform.assuredLevels ≤ room) (hfs : ∀ f ∈ fs, f.WellFormed)
    (hencode : encode fs = .ok text) :
    Utf8.decodeText (Utf8.encode text) = .ok text ∧
      decode room text = readFindings (fs.map Finding.document) := by
  have hkeys : ∀ f ∈ fs, f.document.hasUniqueKeys = true := fun f hf =>
    Finding.hasUniqueKeys_document (hfs f hf)
  obtain ⟨hutf8, hitems⟩ := items_of_encode hroom hkeys hencode
  refine ⟨hutf8, ?_⟩
  -- The three steps are bracketed anew: the first two make up the text layer.
  have hdecode : decode room text = (readDocument room text >>= itemsOf) >>= readFindings := by
    rw [decode, bind_assoc]
  rw [hdecode, hitems]
  rfl

theorem readFindings_document (hfs : ∀ f ∈ fs, f.WellFormed ∧ ¬f.HidesState) :
    readFindings (fs.map Finding.document) = .ok (fs.map Finding.stored) := by
  rw [readFindings_eq_ok, List.forall₂_map_left_iff, List.forall₂_map_right_iff, List.forall₂_same]
  exact fun f hf => Finding.ofJson_document (hfs f hf).1 (hfs f hf).2

/-- Findings that come back with their documents have hidden nothing. -/
theorem not_hidesState_of_readFindings (hfs : ∀ f ∈ fs, f.WellFormed)
    (hread : readFindings (fs.map Finding.document) = .ok gs)
    (hdocuments : gs.map Finding.document = fs.map Finding.document) :
    ∀ f ∈ fs, ¬f.HidesState := by
  rw [readFindings_eq_ok, List.forall₂_map_left_iff] at hread
  induction hread with
  | nil => exact fun f hf => absurd hf List.not_mem_nil
  | @cons f g fs gs hg _ ih =>
    rw [List.map_cons, List.map_cons, List.cons.injEq] at hdocuments
    rw [List.forall_mem_cons] at hfs ⊢
    exact ⟨fun hhides => Finding.document_ne_of_hidesState hfs.1 hhides hg hdocuments.1,
      ih hfs.2 hdocuments.2⟩

theorem readDocument_eq_ok {v : Json} :
    readDocument room text = .ok v ↔ Json.read room text = .ok v := by
  rw [readDocument]
  cases Json.read room text with
  | error e => simp
  | ok w => simp

theorem itemsOf_eq_ok {v : Json} {items : List Json} :
    itemsOf v = .ok items ↔ Analyzer.findingItems v = .ok items := by
  rw [itemsOf]
  cases Analyzer.findingItems v with
  | error e => simp
  | ok found => simp

/-- A text is decoded if each of the three steps gives something. -/
theorem decode_eq_ok : decode room text = .ok gs ↔ ∃ v items, Json.read room text = .ok v ∧
    Analyzer.findingItems v = .ok items ∧ readFindings items = .ok gs := by
  have hbind : ∀ {α β : Type} (x : Except Failure α) (f : α → Except Failure β) (b : β),
      x.bind f = .ok b ↔ ∃ a, x = .ok a ∧ f a = .ok b := by
    intro α β x f b
    cases x with
    | error e => simp [Except.bind]
    | ok a => simp [Except.bind]
  have hsteps : decode room text = (readDocument room text).bind fun v =>
    (itemsOf v).bind readFindings := rfl
  rw [hsteps]
  simp only [hbind, readDocument_eq_ok, itemsOf_eq_ok, exists_and_left]

/-- **Whatever text is decoded, the findings are well-formed.** -/
theorem wellFormed_of_decode (hdecode : decode room text = .ok gs) : ∀ g ∈ gs, g.WellFormed := by
  obtain ⟨v, items, hread, hitems, hfindings⟩ := decode_eq_ok.1 hdecode
  have hkeys := haveUniqueKeys_of_findingItems (Json.hasUniqueKeys_of_read hread) hitems
  intro g hg
  obtain ⟨item, hitem, hofJson⟩ := Checked.exists_of_mem_forall₂ (readFindings_eq_ok.1 hfindings) hg
  exact Finding.wellFormed_of_ofJson hofJson (hkeys item hitem)

/-- **What is decoded has the canonical forms of what was encoded.** -/
theorem map_canonical_of_decode (hroom : Platform.assuredLevels ≤ room)
    (hfs : ∀ f ∈ fs, f.WellFormed)
    (hencode : encode fs = .ok text) (hdecode : decode room text = .ok gs) :
    gs.map Finding.canonical = fs.map Finding.canonical := by
  rw [(decode_of_encode hroom hfs hencode).2, readFindings_eq_ok,
    List.forall₂_map_left_iff] at hdecode
  exact Checked.map_eq_of_forall₂
    (fun f hf g hg => Finding.canonical_of_reread (hfs f hf) hg) hdecode

end Repository
end SourceDrift
