import LayeredTags.Cache.Manager

/-!
# What the cache answers

* `CacheManager.isUsable_iff`, `CacheManager.lookup_eq_some_iff`: when an artifact stands for an
  identity.
* `CacheManager.le_recordedTime`: no candidate has changed behind the time that is recorded.
* `CacheManager.obtain_of_lookup_eq_some`, `obtain_of_error`, `obtain_of_ok`: a hit, and what
  compiling does otherwise.
-/

namespace LayeredTags

namespace Instant

theorem eq_nil_of_latest? {ts : List Instant} (h : latest? ts = none) : ts = [] := by
  cases ts with
  | nil => rfl
  | cons t rest =>
    rw [latest?] at h
    split at h <;> cases h

theorem le_of_latest? {ts : List Instant} {t u : Instant} (h : latest? ts = some u)
    (ht : t ∈ ts) : t ≤ u := by
  induction ts generalizing u with
  | nil => cases ht
  | cons s rest ih =>
    rw [latest?] at h
    cases hrest : latest? rest with
    | none =>
      rw [hrest] at h
      obtain rfl := Option.some.inj h
      rw [eq_nil_of_latest? hrest] at ht
      obtain rfl := List.mem_singleton.mp ht
      exact le_refl _
    | some v =>
      rw [hrest] at h
      obtain rfl := Option.some.inj h
      rcases List.mem_cons.mp ht with rfl | ht
      · exact le_max_left _ _
      · exact le_trans (ih hrest ht) (le_max_right _ _)

end Instant

namespace CacheManager

variable {σ : Type} {modified? : Path → Option Instant} {identity : List Path} {a : Artifact}
  {now : Instant}

theorem isUsable_iff : isUsable modified? identity a = true ↔
    Path.SameList a.identity identity ∧ Path.SameList a.existing (existing modified? identity) ∧
      ∀ p ∈ identity, ∀ t, modified? p = some t → t ≤ a.recorded := by
  rw [isUsable, Bool.and_eq_true, Bool.and_eq_true, decide_eq_true_iff, decide_eq_true_iff,
    Artifact.isFresh_iff]
  refine and_congr_right fun _ => and_congr_right fun _ => ?_
  simp only [times, List.mem_filterMap]
  exact ⟨fun h p hp t ht => h t ⟨p, hp, ht⟩, fun h t ⟨p, hp, ht⟩ => h p hp t ht⟩

theorem le_recordedTime {p : Path} {t : Instant} (hp : p ∈ identity) (ht : modified? p = some t) :
    t ≤ recordedTime modified? now identity := by
  have hmem : t ∈ times modified? identity := List.mem_filterMap.mpr ⟨p, hp, ht⟩
  rw [recordedTime]
  cases hlatest : Instant.latest? (times modified? identity) with
  | none =>
    rw [Instant.eq_nil_of_latest? hlatest] at hmem
    cases hmem
  | some u => exact Instant.le_trans (Instant.le_of_latest? hlatest hmem) (Instant.le_max_left _ _)

variable [ArtifactStore σ] {m : CacheManager σ}

theorem lookup_eq_some_iff : m.lookup modified? identity = some a ↔
    ArtifactStore.load m.store (m.keyOf identity) = .ok (some a) ∧
      isUsable modified? identity a = true := by
  rw [lookup]
  split
  · rename_i b hload
    rw [hload]
    constructor
    · intro h
      split at h
      · obtain rfl := Option.some.inj h
        exact ⟨rfl, ‹_›⟩
      · cases h
    · rintro ⟨h, husable⟩
      obtain rfl := Option.some.inj (Except.ok.inj h)
      rw [if_pos husable]
  · rename_i hload
    rw [hload]
    exact ⟨nofun, nofun⟩
  · rename_i e hload
    rw [hload]
    exact ⟨nofun, nofun⟩

variable {ε ρ : Type} {compile : Instant → Except ε (Artifact × ρ)} {report : ρ}

theorem obtain_of_lookup_eq_some (h : m.lookup modified? identity = some a) :
    m.obtain modified? now identity compile = (.ok (a, none), m) := by
  rw [obtain, h]

theorem obtain_of_error {e : ε} (h : m.lookup modified? identity = none)
    (hcompile : compile (recordedTime modified? now identity) = .error e) :
    m.obtain modified? now identity compile = (.error e, m) := by
  rw [obtain, h, hcompile]

theorem obtain_of_ok (h : m.lookup modified? identity = none)
    (hcompile : compile (recordedTime modified? now identity) = .ok (a, report)) :
    m.obtain modified? now identity compile =
      (.ok (stamp modified? identity a, some report),
        { m with
          store := (ArtifactStore.save m.store (m.keyOf identity)
            (stamp modified? identity a)).2 }) := by
  rw [obtain, h, hcompile]

end CacheManager

end LayeredTags
