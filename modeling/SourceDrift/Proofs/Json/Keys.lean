/-
What a text denotes has no key twice.

The reader of objects gives the pairs of a text to `collect`, which puts a later value in the
place of an earlier one. So whatever the text says, the value that is read is one of those that
can be written and read again. The three readers call each other with less fuel, and the fuel
carries what is claimed of all three at once.
-/
import SourceDrift.Analyzer.Output
import SourceDrift.Json.Reader
import SourceDrift.Proofs.Json.Members

set_option autoImplicit false

namespace SourceDrift

namespace Json

/-! ## Collecting members -/

theorem mem_keys_set {key k : String} {v : Json} {members : List Member} :
    k ∈ (set key v members).map (·.1) ↔ k = key ∨ k ∈ members.map (·.1) := by
  induction members with
  | nil => simp [set]
  | cons m rest ih =>
    obtain ⟨k', w⟩ := m
    rw [set]
    by_cases hk : k' = key
    · rw [if_pos hk, List.map_cons, List.map_cons, List.mem_cons, hk]
      simp
    · rw [if_neg hk, List.map_cons, List.map_cons, List.mem_cons, List.mem_cons, ih]
      exact or_left_comm

theorem nodup_set {key : String} {v : Json} {members : List Member}
    (hmembers : (members.map (·.1)).Nodup) : ((set key v members).map (·.1)).Nodup := by
  induction members with
  | nil => exact List.nodup_cons.2 ⟨List.not_mem_nil, List.nodup_nil⟩
  | cons m rest ih =>
    obtain ⟨k, w⟩ := m
    rw [List.map_cons, List.nodup_cons] at hmembers
    rw [set]
    by_cases hk : k = key
    · rw [if_pos hk, List.map_cons, List.nodup_cons]
      exact hmembers
    · rw [if_neg hk, List.map_cons, List.nodup_cons, mem_keys_set, not_or]
      exact ⟨⟨hk, hmembers.1⟩, ih hmembers.2⟩

theorem membersHaveUniqueKeys_set {key : String} {v : Json} {members : List Member}
    (hv : v.hasUniqueKeys = true) (hmembers : membersHaveUniqueKeys members = true) :
    membersHaveUniqueKeys (set key v members) = true := by
  induction members with
  | nil => rw [set, membersHaveUniqueKeys, hv]; rfl
  | cons m rest ih =>
    obtain ⟨k, w⟩ := m
    rw [membersHaveUniqueKeys, Bool.and_eq_true] at hmembers
    rw [set]
    split
    · rw [membersHaveUniqueKeys, hv, hmembers.2]
      rfl
    · rw [membersHaveUniqueKeys, hmembers.1, ih hmembers.2]
      rfl

/-- **Collected members have each key once**, and what they have below is what the pairs have. -/
theorem hasUniqueKeys_collect {pairs : List Member} (hpairs : membersHaveUniqueKeys pairs = true) :
    (Json.obj (Reader.collect pairs)).hasUniqueKeys = true := by
  -- Collecting folds from the left, so the induction is on the pairs that are left and speaks of
  -- any members collected before them.
  have hfold : ∀ (after before : List Member), membersHaveUniqueKeys after = true →
      (before.map (·.1)).Nodup ∧ membersHaveUniqueKeys before = true →
      ((after.foldl (fun members m => set m.1 m.2 members) before).map (·.1)).Nodup ∧
        membersHaveUniqueKeys (after.foldl (fun members m => set m.1 m.2 members) before) =
        true := by
    intro after
    induction after with
    | nil => exact fun before _ hbefore => hbefore
    | cons m rest ih =>
      obtain ⟨k, v⟩ := m
      intro before hafter hbefore
      rw [membersHaveUniqueKeys, Bool.and_eq_true] at hafter
      rw [List.foldl_cons]
      exact ih _ hafter.2 ⟨nodup_set hbefore.1, membersHaveUniqueKeys_set hafter.1 hbefore.2⟩
  obtain ⟨hnodup, hbelow⟩ := hfold pairs [] hpairs ⟨List.nodup_nil, rfl⟩
  rw [hasUniqueKeys, Reader.collect, decide_eq_true hnodup, hbelow]
  rfl

/-! ## Reading -/

namespace Reader

theorem hasUniqueKeys_of_value {l : Number.Literal} {v : Json} (h : l.value = .ok v) :
    v.hasUniqueKeys = true := by
  unfold Number.Literal.value at h
  split at h
  · cases hbounded : Numeral.boundedValue l.whole with
    | error e =>
      rw [hbounded] at h
      cases h
    | ok n =>
      rw [hbounded] at h
      cases h
      rfl
  · cases h
    rfl

/-- No word or number is an object. -/
theorem hasUniqueKeys_of_readScalar {cs rest : List Char} {v : Json}
    (h : readScalar cs = .ok (v, rest)) : v.hasUniqueKeys = true := by
  unfold readScalar at h
  split at h
  · next found hword =>
    have hwords : ∀ w ∈ words, w.2.hasUniqueKeys = true := by decide
    obtain rfl := Except.ok.inj h
    obtain ⟨w, hw, hfound⟩ := List.exists_of_findSome?_eq_some hword
    dsimp only at hfound
    split at hfound
    · cases hfound
      exact hwords _ hw
    · cases hfound
  · split at h
    · cases h
    · split at h
      · next hvalue =>
        cases h
        exact hasUniqueKeys_of_value hvalue
      · cases h

/-- Whether what is read with so much fuel has no key twice, by each of the three readers and
whatever room there is. -/
structure ReadsUnique (fuel : Nat) : Prop where
  value : ∀ {room cs rest v}, readValue room fuel cs = .ok (v, rest) → v.hasUniqueKeys = true
  items : ∀ {room cs rest vs}, readItems room fuel cs = .ok (vs, rest) → haveUniqueKeys vs = true
  members : ∀ {room cs rest ms}, readMembers room fuel cs = .ok (ms, rest) →
    membersHaveUniqueKeys ms = true

namespace ReadsUnique

variable {room fuel : Nat} {cs rest : List Char}

theorem value_succ (ih : ReadsUnique fuel) {v : Json}
    (h : readValue room (fuel + 1) cs = .ok (v, rest)) : v.hasUniqueKeys = true := by
  cases cs with
  | nil => cases h
  | cons c cs =>
    rw [readValue] at h
    -- By the first character, as the reader goes on by it: a text, a list, an object, or something
    -- plain.
    by_cases hquote : c = '"'
    · rw [if_pos hquote] at h
      split at h
      · cases h
      · cases h
        rfl
    rw [if_neg hquote] at h
    by_cases hlist : c = '['
    · rw [if_pos hlist] at h
      split at h
      · cases h
      · split at h
        · cases h
          rfl
        · split at h
          · cases h
          · next hitems =>
            cases h
            exact ih.items hitems
    rw [if_neg hlist] at h
    by_cases hobject : c = '\x7b'
    · rw [if_pos hobject] at h
      split at h
      · cases h
      · split at h
        · cases h
          rfl
        · split at h
          · cases h
          · next hmembers =>
            cases h
            exact hasUniqueKeys_collect (ih.members hmembers)
    rw [if_neg hobject] at h
    exact hasUniqueKeys_of_readScalar h

theorem items_succ (ih : ReadsUnique fuel) {vs : List Json}
    (h : readItems room (fuel + 1) cs = .ok (vs, rest)) : haveUniqueKeys vs = true := by
  rw [readItems] at h
  split at h
  · cases h
  · next hvalue =>
    have hfirst := ih.value hvalue
    split at h
    · cases h
      rw [haveUniqueKeys, hfirst]
      rfl
    · split at h
      · cases h
      · next hitems =>
        cases h
        rw [haveUniqueKeys, hfirst, ih.items hitems]
        rfl
    · cases h

theorem members_succ (ih : ReadsUnique fuel) {ms : List Member}
    (h : readMembers room (fuel + 1) cs = .ok (ms, rest)) : membersHaveUniqueKeys ms = true := by
  cases cs with
  | nil => cases h
  | cons c cs =>
    rw [readMembers] at h
    -- A member starts with the quote of its key, and each step behind it may fail.
    by_cases hquote : c = '"'
    · rw [if_pos hquote] at h
      split at h
      · cases h
      · split at h
        · split at h
          · cases h
          · next hvalue =>
            have hfirst := ih.value hvalue
            split at h
            · cases h
              rw [membersHaveUniqueKeys, hfirst]
              rfl
            · split at h
              · cases h
              · next hmembers =>
                cases h
                rw [membersHaveUniqueKeys, hfirst, ih.members hmembers]
                rfl
            · cases h
        · cases h
    · rw [if_neg hquote] at h
      cases h

end ReadsUnique

theorem readsUnique (fuel : Nat) : ReadsUnique fuel := by
  induction fuel with
  | zero =>
    refine ⟨fun h => ?_, fun h => ?_, fun h => ?_⟩
    · cases h
    · cases h
    · cases h
  | succ fuel ih =>
    -- Each reader calls the others with one fuel less, so that one hypothesis serves all three.
    exact ⟨ih.value_succ, ih.items_succ, ih.members_succ⟩

end Reader

/-- **What a text denotes has no key twice.** -/
theorem hasUniqueKeys_of_read {room : Nat} {text : String} {v : Json}
    (h : read room text = .ok v) : v.hasUniqueKeys = true := by
  unfold read at h
  split at h
  · next hdocument =>
    cases h
    unfold Reader.readDocument at hdocument
    split at hdocument
    · cases hdocument
    · split at hdocument
      · cases hdocument
      · next hvalue =>
        split at hdocument
        · cases hdocument
          exact (Reader.readsUnique _).value hvalue
        · cases hdocument
  · cases h

end Json

/-! ## The findings of a document -/

theorem Json.hasUniqueKeys_of_truthyField {key : String} {v : Json} {members : List Json.Member}
    (hunique : (Json.obj members).hasUniqueKeys = true)
    (h : Analyzer.truthyField? key members = some v) : v.hasUniqueKeys = true :=
  Json.hasUniqueKeys_of_lookup hunique (Option.filter_eq_some_iff.1 h).1

theorem haveUniqueKeys_of_findingItems {v : Json} {items : List Json}
    (hv : v.hasUniqueKeys = true) (h : Analyzer.findingItems v = .ok items) :
    ∀ item ∈ items, item.hasUniqueKeys = true := by
  rw [← Json.haveUniqueKeys_iff]
  unfold Analyzer.findingItems at h
  split at h
  · cases h
    exact hv
  · split at h
    · cases h
      rfl
    · next hresults =>
      have hunique := Json.hasUniqueKeys_of_truthyField hv hresults
      unfold Analyzer.detectorItems at h
      split at h
      · cases h
        rfl
      · next hdetectors =>
        cases h
        exact Json.hasUniqueKeys_of_truthyField hunique hdetectors
      · cases h
    · cases h
  · cases h

end SourceDrift
