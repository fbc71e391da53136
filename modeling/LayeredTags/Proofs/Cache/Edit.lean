import LayeredTags.Proofs.Cache.Manager
import LayeredTags.Proofs.Source.Memory

/-!
# Edits behind an artifact

An artifact records the latest among the clock and the times of all candidates. An edit that is
stamped with a later clock is noticed unless some candidate carried a time that is later still.

* `CacheManager.recordedTime_lt_iff`: when the time that is recorded lies before another one.
* `CacheManager.stampAt`: a table of times after one file has been stamped.
* `CacheManager.isUsable_stampAt`: whether an artifact is used after that.
* `CacheManager.obtain_behind_edit`: when the next call compiles again.
-/

namespace LayeredTags

namespace Instant

theorem max_lt_iff {a b c : Instant} : max a b < c ↔ a < c ∧ b < c := by
  change (max a b).sinceEpoch < c.sinceEpoch ↔
    a.sinceEpoch < c.sinceEpoch ∧ b.sinceEpoch < c.sinceEpoch
  rw [max_def]
  split
  · rename_i hle
    have : a.sinceEpoch ≤ b.sinceEpoch := hle
    omega
  · rename_i hle
    have : b.sinceEpoch < a.sinceEpoch := lt_of_not_le hle
    omega

theorem latest?_lt_iff {ts : List Instant} {u c : Instant} (h : latest? ts = some u) :
    u < c ↔ ∀ t ∈ ts, t < c := by
  induction ts generalizing u with
  | nil => cases h
  | cons t rest ih =>
    rw [latest?] at h
    cases hrest : latest? rest with
    | none =>
      rw [hrest] at h
      obtain rfl := Option.some.inj h
      rw [eq_nil_of_latest? hrest]
      simp
    | some v =>
      rw [hrest] at h
      obtain rfl := Option.some.inj h
      rw [max_lt_iff, ih hrest]
      simp

end Instant

namespace CacheManager

section table

variable {modified? : Path → Option Instant} {identity : List Path} {path : Path}
  {now t : Instant} {a : Artifact}

theorem recordedTime_lt_iff : recordedTime modified? now identity < t ↔
    now < t ∧ ∀ p ∈ identity, ∀ u, modified? p = some u → u < t := by
  have htimes : (∀ u ∈ times modified? identity, u < t) ↔
      ∀ p ∈ identity, ∀ u, modified? p = some u → u < t := by
    simp only [times, List.mem_filterMap]
    constructor
    · exact fun h p hp u hu => h u ⟨p, hp, hu⟩
    · rintro h u ⟨p, hp, hu⟩
      exact h p hp u hu
  rw [← htimes]
  unfold recordedTime
  cases hlatest : Instant.latest? (times modified? identity) with
  | none =>
    rw [Instant.eq_nil_of_latest? hlatest]
    simp
  | some newest =>
    rw [Instant.max_lt_iff, Instant.latest?_lt_iff hlatest, and_comm]

theorem recordedTime_le {clock : Instant} (hnow : now ≤ clock)
    (h : ∀ p ∈ identity, ∀ u, modified? p = some u → u ≤ clock) :
    recordedTime modified? now identity ≤ clock := by
  have hnext : ∀ u : Instant, u < ⟨clock.sinceEpoch + 1⟩ ↔ u ≤ clock := fun u => Int.lt_add_one_iff
  rw [← hnext, recordedTime_lt_iff]
  exact ⟨(hnext now).mpr hnow, fun p hp u hu => (hnext u).mpr (h p hp u hu)⟩

def stampAt (modified? : Path → Option Instant) (path : Path) (t : Instant) :
    Path → Option Instant :=
  fun p => if p.Same path then some t else modified? p

theorem existing_stampAt (hfile : ∀ p ∈ identity, p.Same path → (modified? p).isSome) :
    existing (stampAt modified? path t) identity = existing modified? identity := by
  unfold existing
  apply List.filter_congr
  intro p hp
  unfold stampAt
  split
  · rw [hfile p hp ‹_›]
    rfl
  · rfl

/-- An artifact that was compiled for a table of times may stand for the same paths after a file
has been stamped if and only if the stamp is not later than the time recorded. -/
theorem isUsable_stampAt (hpath : path ∈ identity)
    (hfile : ∀ p ∈ identity, p.Same path → (modified? p).isSome)
    (hrecorded : ∀ p ∈ identity, ∀ u, modified? p = some u → u ≤ a.recorded) :
    isUsable (stampAt modified? path t) identity (stamp modified? identity a) = true ↔
      t ≤ a.recorded := by
  rw [isUsable_iff, existing_stampAt hfile]
  constructor
  · rintro ⟨-, -, htimes⟩
    exact htimes path hpath t (if_pos rfl)
  · intro hle
    refine ⟨.refl _, .refl _, fun p hp u hu => ?_⟩
    unfold stampAt at hu
    split at hu
    · obtain rfl := Option.some.inj hu
      exact hle
    · exact hrecorded p hp u hu

end table

section calls

variable {σ ε ε' ρ ρ' : Type} [ArtifactStore σ] {m : CacheManager σ}
  {modified? : Path → Option Instant} {identity : List Path} {path : Path}
  {now later t : Instant} {a : Artifact} {report : ρ}
  {compile : Instant → Except ε (Artifact × ρ)} {again : Instant → Except ε' (Artifact × ρ')}

theorem obtain_eq_cached_iff : (m.obtain modified? now identity compile).1 = .ok (a, none) ↔
    m.lookup modified? identity = some a := by
  cases hlookup : m.lookup modified? identity with
  | some b =>
    rw [obtain_of_lookup_eq_some hlookup]
    simp
  | none =>
    cases hcompile : compile (recordedTime modified? now identity) with
    | error e =>
      rw [obtain_of_error hlookup hcompile]
      simp
    | ok result =>
      obtain ⟨b, report⟩ := result
      rw [obtain_of_ok hlookup hcompile]
      simp

/-- **Edits behind an artifact.** A call has compiled and stored an artifact, and a candidate is
stamped with a later clock. The next call compiles again if and only if every candidate, also the
edited one, carried a time before that stamp. -/
theorem obtain_behind_edit (hmiss : m.lookup modified? identity = none)
    (hcompile : compile (recordedTime modified? now identity) = .ok (a, report))
    (hrecorded : a.recorded = recordedTime modified? now identity)
    (hstored : ArtifactStore.load (m.obtain modified? now identity compile).2.store
      (m.keyOf identity) = .ok (some (stamp modified? identity a)))
    (hpath : path ∈ identity) (hfile : ∀ p ∈ identity, p.Same path → (modified? p).isSome)
    (hlater : now < t) :
    (∀ b, ((m.obtain modified? now identity compile).2.obtain
        (stampAt modified? path t) later identity again).1 ≠ .ok (b, none)) ↔
      ∀ p ∈ identity, ∀ u, modified? p = some u → u < t := by
  have husable : isUsable (stampAt modified? path t) identity (stamp modified? identity a) = true ↔
      t ≤ a.recorded :=
    isUsable_stampAt hpath hfile fun p hp u hu => hrecorded ▸ le_recordedTime hp hu
  have hkey : (m.obtain modified? now identity compile).2.keyOf = m.keyOf := by
    rw [obtain_of_ok hmiss hcompile]
  have hbefore : a.recorded < t ↔ ∀ p ∈ identity, ∀ u, modified? p = some u → u < t := by
    rw [hrecorded, recordedTime_lt_iff, and_iff_right hlater]
  simp only [ne_eq, obtain_eq_cached_iff, lookup_eq_some_iff, hkey, hstored, Except.ok.injEq,
    Option.some.injEq, not_and, forall_eq']
  rw [husable, ← hbefore]
  exact ⟨Instant.lt_of_not_le, Instant.not_le_of_lt⟩

end calls

def twoTimes (child base : Instant) : Path → Option Instant := fun p =>
  if p.Same ⟨"child/page.tpl"⟩ then some child
  else if p.Same ⟨"base/page.tpl"⟩ then some base else none

def twoLayers : List Path := [⟨"child/page.tpl"⟩, ⟨"base/page.tpl"⟩]

def yields (code : String) (recorded : Instant) : Except TemplateError (Artifact × Unit) :=
  .ok (.new twoLayers code recorded, ())

/-- The cache after the two layers have been compiled at a time. -/
def compiledAt (modified? : Path → Option Instant) (now : Instant) : CacheManager MemoryStore :=
  ((new MemoryStore.empty).obtain modified? now twoLayers (yields "one")).2

/-- The more specific layer is stamped ahead of the clock, and an edit of the less specific one is
missed; once that stamp lies in the past, an edit is noticed. -/
theorem obtain_behind_edit_aheadOfClock :
    (¬ ∀ b, ((compiledAt (twoTimes ⟨9⟩ ⟨1⟩) ⟨2⟩).obtain
      (stampAt (twoTimes ⟨9⟩ ⟨1⟩) ⟨"base/page.tpl"⟩ ⟨5⟩) ⟨6⟩ twoLayers (yields "two")).1 ≠
        .ok (b, none)) ∧
    ∀ b, ((compiledAt (twoTimes ⟨9⟩ ⟨1⟩) ⟨2⟩).obtain
      (stampAt (twoTimes ⟨9⟩ ⟨1⟩) ⟨"base/page.tpl"⟩ ⟨10⟩) ⟨11⟩ twoLayers (yields "two")).1 ≠
        .ok (b, none) := by
  unfold compiledAt
  constructor
  · rw [obtain_behind_edit rfl rfl rfl rfl (by decide) (by decide) (by decide)]
    exact fun hbefore => absurd (hbefore ⟨"child/page.tpl"⟩ (.head _) ⟨9⟩ rfl) (by decide)
  · rw [obtain_behind_edit rfl rfl rfl rfl (by decide) (by decide) (by decide)]
    decide

/-- It is not the case that every edit behind a compilation is noticed. -/
theorem not_forall_edit_noticed :
    ¬ ∀ (m : CacheManager MemoryStore) (modified? : Path → Option Instant) (identity : List Path)
      (path : Path) (code again : Except TemplateError String) (now later t : Instant),
      m.lookup modified? identity = none → (∃ text, code = .ok text) → path ∈ identity →
        (modified? path).isSome → now < t → modified? path ≠ some t →
          ∀ b, ((m.obtainCode modified? now identity code).2.obtainCode
            (stampAt modified? path t) later identity again).1 ≠ .ok (b, none) := by
  intro h
  exact h (new MemoryStore.empty) (twoTimes ⟨9⟩ ⟨1⟩) twoLayers ⟨"base/page.tpl"⟩ (.ok "one")
    (.ok "two") ⟨2⟩ ⟨6⟩ ⟨5⟩ rfl ⟨_, rfl⟩ (by decide) (by decide) (by decide) (by decide) _ rfl

end CacheManager

end LayeredTags
