/-
Recording where every file can be read.

A recording asks its cache for what a name reads, and the cache may answer with what another
name has read before it. Which of the two it is does not matter for whether there is an answer:
where all files can be read the cache remembers none that could not, so that no mapping is left
without a digest.
-/
import SourceDrift.Proofs.Sync.Redigest

set_option autoImplicit false

namespace SourceDrift

/-- Whether an element that points at a file has a digest for it. -/
def Element.HasDigest (e : Element) : Prop :=
  ∀ m, e.mapping = some m → m.digest.isSome

namespace Sync

variable {src : Sources} {root : Path} {cache : Cache}

/-- Whether a cache remembers only files that could be read. -/
def Cache.Fruitful (cache : Cache) : Prop :=
  ∀ key content, cache.lookup key = some content → content.isSome

theorem fetch_of_fruitful {p : Path} (hcache : cache.Fruitful) (hp : (src.read p).isSome) :
    ∃ bytes after, fetch src cache p = (some bytes, after) ∧ after.Fruitful := by
  unfold fetch
  cases hfound : cache.lookup (src.key p) with
  | some content =>
    obtain ⟨bytes, rfl⟩ := Option.isSome_iff_exists.1 (hcache _ _ hfound)
    exact ⟨bytes, cache, rfl, hcache⟩
  | none =>
    obtain ⟨bytes, hread⟩ := Option.isSome_iff_exists.1 hp
    refine ⟨bytes, _, by rw [hread], ?_⟩
    intro key content hlookup
    rw [Cache.lookup] at hlookup
    split at hlookup
    · rw [← Option.some.inj hlookup]
      rfl
    · exact hcache _ _ hlookup

theorem step_hasDigest {e : Element}
    (he : ∀ m, e.mapping = some m → (src.read (m.file root)).isSome) :
    Step src root false Cache.Fruitful (fun _ e' _ => e'.HasDigest) e := by
  intro cache hcache
  unfold captureElement captureMapping
  cases hm : e.mapping with
  | none =>
    refine ⟨e, 0, cache, rfl, hcache, fun m hm' => ?_⟩
    rw [hm] at hm'
    cases hm'
  | some m =>
    obtain ⟨bytes, after, hfetch, hafter⟩ := fetch_of_fruitful hcache (he m hm)
    simp only [Bool.false_and, Bool.false_eq_true, if_false, hfetch]
    refine ⟨_, 1, after, rfl, hafter, fun m' hm' => ?_⟩
    -- A digest does not change whether a mapping points at a file.
    have hmapped : (m.withDigest (m.digestIn bytes)).isMapped = true :=
      (Element.mapping?_of_mapping hm).2
    rw [if_neg (by decide), Element.mapping_withMapping hmapped] at hm'
    rw [← Option.some.inj hm']
    rfl

/-- **Where every file can be read every mapping gets a digest**, whatever the keys of the
files are. -/
theorem digest_capture {fs : List Finding}
    (hfs : ∀ f ∈ fs, ∀ m ∈ mappings f, (src.read (m.file root)).isSome) :
    ∀ f ∈ (capture src root false fs).1, ∀ m ∈ mappings f, m.digest.isSome := by
  have hall : Swept (SweptFinding fun _ e' _ => e'.HasDigest) fs
      (capture src root false fs).1 (capture src root false fs).2 := by
    refine capture_swept _ (fun _ _ h => by cases h) fun f hf e he => step_hasDigest fun m hm => ?_
    exact hfs f hf m (mem_mappings.2 ⟨e, he, hm⟩)
  intro g hg m hm
  obtain ⟨e, he, hmapping⟩ := mem_mappings.1 hm
  obtain ⟨f, -, count, hf⟩ := Checked.exists_of_mem_forall₂ hall.forall₂ hg
  rcases hf with ⟨hnone, rfl, -⟩ | ⟨es, es', -, rfl, hes'⟩
  · rw [Finding.elements, hnone] at he
    cases he
  · obtain ⟨e₀, -, _, hdigest⟩ := Checked.exists_of_mem_forall₂ hes'.forall₂ he
    exact hdigest m hmapping

end Sync
end SourceDrift
