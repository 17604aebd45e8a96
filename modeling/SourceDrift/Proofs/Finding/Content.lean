/-
What makes two findings duplicates.

The canonical form is made from the finding in memory, the document is what is stored and shown.
`analyserPart` says on the document's side which keys the form leaves out: two at the top and
two in the mapping of each element. It names places and not only keys, so that a key of the
same name anywhere else, in an element or inside an extra, still counts. What is left is the
document of the content, and of two such documents the form says whether they are one value up
to the order of keys.
-/
import SourceDrift.Proofs.Finding.Canonical
import SourceDrift.Proofs.Finding.Shallow

set_option autoImplicit false

namespace SourceDrift

/-! ## Changing a document in one place -/

namespace Json

/-- An object without some keys; other values as they are. -/
def dropKeys (keys : List String) : Json → Json
  | .obj members => .obj (without keys members)
  | v => v

/-- Members with the value of one key changed. -/
def changeAt (key : String) (change : Json → Json) (members : List Member) : List Member :=
  members.map fun m => if m.1 = key then (m.1, change m.2) else m

/-- An object with the value of one key changed; other values as they are. -/
def changeField (key : String) (change : Json → Json) : Json → Json
  | .obj members => .obj (changeAt key change members)
  | v => v

/-- A list with each item changed; other values as they are. -/
def changeItems (change : Json → Json) : Json → Json
  | .arr items => .arr (items.map change)
  | v => v

/-- **A finding's document without what the drift check keeps in it.** -/
def analyserPart (document : Json) : Json :=
  changeField "elements"
    (changeItems (changeField "source_mapping" (dropKeys ["_ext_source_hash", "source_hash"])))
    (dropKeys ["_ext_in_sync", "in_sync"] document)

variable {α : Type} {key k : String} {change : Json → Json}

theorem changeAt_append (xs ys : List Member) :
    changeAt key change (xs ++ ys) = changeAt key change xs ++ changeAt key change ys :=
  List.map_append

theorem changeAt_given (toJson : α → Json) (o : Option α) :
    changeAt key change (given key toJson o) = given key (change ∘ toJson) o := by
  cases o with
  | none => rfl
  | some a => exact congrArg (· :: []) (if_pos rfl)

/-- Nothing is changed where the key does not occur. -/
theorem changeAt_eq_self {members : List Member} (h : lookup key members = none) :
    changeAt key change members = members := by
  rw [lookup_eq_none_iff] at h
  have hsame : ∀ m ∈ members, (if m.1 = key then (m.1, change m.2) else m) = m := by
    intro m hm
    refine if_neg ?_
    rintro rfl
    exact h (List.mem_map_of_mem hm)
  exact (List.map_congr_left hsame).trans (List.map_id members)

theorem changeAt_given_ne (hk : k ≠ key) (toJson : α → Json) (o : Option α) :
    changeAt key change (given k toJson o) = given k toJson o :=
  changeAt_eq_self (lookup_given_ne hk toJson o)

theorem without_given_of_not_mem {keys : List String} (hk : k ∉ keys) (toJson : α → Json)
    (o : Option α) : without keys (given k toJson o) = given k toJson o := by
  refine without_eq_self (fun key hkey => lookup_given_ne ?_ toJson o)
  rintro rfl
  exact hk hkey

/-- Of two keys the one that does not occur need not be left out of what a document keeps. -/
theorem without_dropNonFiniteMembers_pair {first second : String} {members : List Member}
    (h : lookup first members = none) :
    without [first, second] (dropNonFiniteMembers members) =
      dropNonFiniteMembers (without [second] members) := by
  rw [dropNonFiniteMembers_without]
  refine without_congr (fun m hm => ?_)
  have hne : m.1 ≠ first := by
    rintro rfl
    rw [lookup_eq_none_iff, ← map_fst_dropNonFiniteMembers] at h
    exact h (List.mem_map_of_mem hm)
  rw [List.mem_cons, or_iff_right hne]

end Json

/-! ## The content, on either side -/

theorem SourceMapping.dropKeys_members {m : SourceMapping} (hm : m.WellFormed) :
    Json.dropKeys ["_ext_source_hash", "source_hash"] (.obj m.members) =
    .obj m.content.members := by
  have hextras : Json.lookup "_ext_source_hash" m.extras = none := hm.names _ (by decide)
  rw [Json.dropKeys, members, members]
  simp (disch := decide) only [Json.without_append, Json.without_given_of_not_mem,
    Json.without_given_mem]
  rw [Json.without_dropNonFiniteMembers_pair hextras]
  rfl

theorem Element.changeField_members {e : Element} (he : e.WellFormed) :
    Json.changeField "source_mapping" (Json.dropKeys ["_ext_source_hash", "source_hash"])
      (.obj e.members) = .obj e.content.members := by
  have hmapping : Json.given "source_mapping"
      (Json.dropKeys ["_ext_source_hash", "source_hash"] ∘ mappingJson) e.mapping? =
        Json.given "source_mapping" mappingJson
        (e.mapping?.map (Option.map SourceMapping.content)) := by
    rw [Json.given_map]
    cases hgiven : e.mapping? with
    | none => rfl
    | some o =>
      cases o with
      | none => rfl
      | some m =>
        have hm := SourceMapping.dropKeys_members (he.mapping m hgiven)
        exact congrArg (fun v => [("source_mapping", v)]) hm
  have hextras : Json.lookup "source_mapping" (Json.dropNonFiniteMembers e.extras) = none :=
    Json.lookup_dropNonFiniteMembers_eq_none (he.names _ (by decide))
  rw [Json.changeField, members, members]
  simp (disch := decide) only [Json.changeAt_append, Json.changeAt_given_ne, Json.changeAt_given]
  rw [Json.changeAt_eq_self hextras, hmapping]
  rfl

namespace Finding

/-- **The content is what is left of the document.** -/
theorem analyserPart_document {f : Finding} (hf : f.WellFormed) :
    Json.analyserPart f.document = f.content.document := by
  have helements : Json.given "elements" (Json.changeItems (Json.changeField "source_mapping"
      (Json.dropKeys ["_ext_source_hash", "source_hash"])) ∘
        fun es => .arr (es.map fun e => .obj e.members)) f.elements? =
      Json.given "elements" (fun es => .arr (es.map fun e => .obj e.members))
        (f.elements?.map (List.map Element.content)) := by
    rw [Json.given_map]
    cases hgiven : f.elements? with
    | none => rfl
    | some es =>
      have hitems : (es.map fun e => Json.obj e.members).map (Json.changeField "source_mapping"
          (Json.dropKeys ["_ext_source_hash", "source_hash"])) =
            (es.map Element.content).map fun e => .obj e.members := by
        rw [List.map_map, List.map_map]
        exact List.map_congr_left
          (fun e he => Element.changeField_members (hf.elements es hgiven e he))
      exact congrArg (fun items => [("elements", Json.arr items)]) hitems
  have hstate : Json.lookup "_ext_in_sync" f.extras = none := hf.names _ (by decide)
  have hextras : Json.lookup "elements"
      (Json.dropNonFiniteMembers (Json.without ["in_sync"] f.extras)) = none := by
    refine Json.lookup_dropNonFiniteMembers_eq_none ?_
    rw [Json.lookup_without, if_neg (by decide)]
    exact hf.names _ (by decide)
  rw [Json.analyserPart, document, document, Json.dropKeys, Json.changeField, members, members,
    SyncState.members_eq, SyncState.members_eq]
  -- First the keys go at the top, where one of them is the state's own and the other can only be
  -- an extra; then the elements are changed, which no extra can be taken for.
  simp (disch := decide) only [Json.without_append, Json.without_given_of_not_mem,
    Json.without_given_mem]
  rw [Json.without_dropNonFiniteMembers_pair hstate]
  simp (disch := decide) only [Json.changeAt_append, Json.changeAt_given_ne, Json.changeAt_given]
  rw [Json.changeAt_eq_self hextras, helements]
  rfl

end Finding

/-! ## Contents are well-formed -/

theorem SourceMapping.WellFormed.content {m : SourceMapping} (hm : m.WellFormed) :
    m.content.WellFormed where
  names := fun key hkey => by
    have hne := hm.names key hkey
    rw [SourceMapping.content, Json.lookup_without, hne, ite_self]
  secondName := fun _ => (Json.lookup_without ..).trans (if_pos (by decide))
  unique := Json.hasUniqueKeys_without _ hm.unique

theorem Element.WellFormed.content {e : Element} (he : e.WellFormed) : e.content.WellFormed where
  mapping := fun m hm => by
    obtain ⟨o, ho, hsome⟩ := Option.map_eq_some_iff.1 hm
    obtain ⟨m', rfl, rfl⟩ := Option.map_eq_some_iff.1 hsome
    exact (he.mapping m' ho).content
  details := he.details
  names := he.names
  secondName := he.secondName
  unique := he.unique

theorem Finding.WellFormed.content {f : Finding} (hf : f.WellFormed) : f.content.WellFormed where
  elements := fun es hes e he => by
    obtain ⟨es', hes', rfl⟩ := Option.map_eq_some_iff.1 hes
    obtain ⟨e', he', rfl⟩ := List.mem_map.1 he
    exact (hf.elements es' hes' e' he').content
  names := fun key hkey => by
    have hne := hf.names key hkey
    rw [Finding.content, Json.lookup_without, hne, ite_self]
  unique := Json.hasUniqueKeys_without _ hf.unique

/-! ## Duplicates -/

namespace Finding

/-- **The canonical form can be made** of what goes nowhere too deep and can be shown. -/
theorem hasCanonical_eq (f : Finding) :
    f.hasCanonical = (f.content.document.isShallowFinding && f.content.document.isWritable) := by
  unfold hasCanonical formFailure?
  cases f.content.document.isShallowFinding <;> cases f.content.document.isWritable <;> rfl

/-- **Two findings have one canonical form exactly if the analyser's part of their documents is
one value**, up to the order of keys at every level. Where the form cannot be made of one of
them it cannot be made of the other. -/
theorem canonical_eq_iff_analyserPart {f g : Finding} (hf : f.WellFormed) (hg : g.WellFormed) :
    (f.canonical = g.canonical ↔
      Json.Alike (Json.analyserPart f.document) (Json.analyserPart g.document)) ∧
    (f.canonical = g.canonical → f.hasCanonical = g.hasCanonical) := by
  have hfunique : f.content.document.hasUniqueKeys = true := hasUniqueKeys_document hf.content
  have hgunique : g.content.document.hasUniqueKeys = true := hasUniqueKeys_document hg.content
  constructor
  · rw [analyserPart_document hf, analyserPart_document hg]
    exact Json.canonical_eq_iff_alike hfunique hgunique
  · intro hcanonical
    rw [hasCanonical_eq, hasCanonical_eq, Json.isShallowFinding_eq_of_canonical hcanonical,
      Json.isWritable_eq_of_canonical hcanonical]

/-- The document of a finding whose sources were found unchanged. Its element has an extra with
the name that a mapping's digest may have. -/
def judgedDocument : Json :=
  .obj [("check", .str "x"), ("elements", .arr [.obj [("source_mapping",
      .obj [("length", .int 4), ("_ext_source_hash", .str "0123")]),
      ("source_hash", .str "kept")]]),
    ("_ext_in_sync", .bool true), ("id", .int 7), ("note", .obj [("in_sync", .null)])]

/-- What the analyser reports of the same issue in another run. -/
def reportedDocument : Json :=
  .obj [("note", .obj [("in_sync", .null)]), ("id", .int 7), ("elements", .arr [.obj
      [("source_hash", .str "kept"), ("source_mapping", .obj [("length", .int 4)])]]),
    ("check", .str "x")]

theorem canonical_eq_iff_analyserPart_reported :
    ∃ f g, ofJson judgedDocument = .ok f ∧ ofJson reportedDocument = .ok g ∧
      f.WellFormed ∧ g.WellFormed ∧
      Json.Alike (Json.analyserPart f.document) (Json.analyserPart g.document) ∧
      f.canonical = g.canonical ∧ f.hasCanonical = g.hasCanonical := by
  obtain ⟨f, hf⟩ : ∃ f, ofJson judgedDocument = .ok f := ⟨_, rfl⟩
  obtain ⟨g, hg⟩ : ∃ g, ofJson reportedDocument = .ok g := ⟨_, rfl⟩
  have hfwell : f.WellFormed := wellFormed_of_ofJson hf (by decide)
  have hgwell : g.WellFormed := wellFormed_of_ofJson hg (by decide)
  have halike : Json.Alike (Json.analyserPart f.document) (Json.analyserPart g.document) := by
    cases hf
    cases hg
    exact Json.alike_of_perm (by decide) (.cons _ (.cons _ (.swap _ _ _)))
  have hforms := canonical_eq_iff_analyserPart hfwell hgwell
  have hsame := hforms.1.2 halike
  exact ⟨f, g, hf, hg, hfwell, hgwell, halike, hsame, hforms.2 hsame⟩

end Finding
end SourceDrift
