import LayeredTags.Cache.Key
import LayeredTags.Store.Basic

/-!
# The cache

An artifact in the store is used as long as it is fresh: the same candidates exist as when it was
compiled, and none of them has changed since. Otherwise the template is compiled again and the
result is stored. A store that fails never stands in the way.

* `CacheManager.lookup`: the fresh artifact of an identity.
* `CacheManager.obtain`: that artifact, or the result of compiling.
-/

namespace LayeredTags

/-- A store and the function that gives its keys. -/
structure CacheManager (σ : Type) where
  store : σ
  keyOf : List Path → String

namespace CacheManager

variable {σ : Type}

def new (store : σ) : CacheManager σ := ⟨store, cacheKey⟩

def existing (modified? : Path → Option Instant) (identity : List Path) : List Path :=
  identity.filter fun p => (modified? p).isSome

/-- The modification times of the candidates that exist. -/
def times (modified? : Path → Option Instant) (identity : List Path) : List Instant :=
  identity.filterMap modified?

/-- Whether an artifact may stand for an identity: it was compiled for the same paths, the same
ones existed, and none has changed since. -/
def isUsable (modified? : Path → Option Instant) (identity : List Path) (a : Artifact) : Bool :=
  decide (Path.SameList a.identity identity) &&
    (decide (Path.SameList a.existing (existing modified? identity)) &&
      a.isFresh (times modified? identity))

/-- The time to record on an artifact that is compiled now. A source that is stamped in the future
moves it there, or the artifact would never be fresh. -/
def recordedTime (modified? : Path → Option Instant) (now : Instant) (identity : List Path) :
    Instant :=
  match Instant.latest? (times modified? identity) with
  | some newest => max newest now
  | none => now

variable [ArtifactStore σ]

/-- The stored artifact of an identity, if it is usable. An artifact that cannot be loaded counts as
missing. -/
def lookup (m : CacheManager σ) (modified? : Path → Option Instant) (identity : List Path) :
    Option Artifact :=
  match ArtifactStore.load m.store (m.keyOf identity) with
  | .ok (some a) => if isUsable modified? identity a then some a else none
  | .ok none | .error _ => none

/-- The artifact as it is stored: the manager sets what was considered and what existed. -/
def stamp (modified? : Path → Option Instant) (identity : List Path) (a : Artifact) : Artifact :=
  { a with identity := identity, existing := existing modified? identity }

/-- The usable artifact of an identity, or else the result of `compile`, which is given the time to
record and is then stored. Beside a compiled artifact stands what `compile` reports. -/
def obtain {ε ρ : Type} (m : CacheManager σ) (modified? : Path → Option Instant) (now : Instant)
    (identity : List Path) (compile : Instant → Except ε (Artifact × ρ)) :
    Except ε (Artifact × Option ρ) × CacheManager σ :=
  match m.lookup modified? identity with
  | some a => (.ok (a, none), m)
  | none =>
    match compile (recordedTime modified? now identity) with
    | .error e => (.error e, m)
    | .ok (a, report) =>
      let stored := stamp modified? identity a
      (.ok (stored, some report),
        { m with store := (ArtifactStore.save m.store (m.keyOf identity) stored).2 })

def obtainCode {ε : Type} (m : CacheManager σ) (modified? : Path → Option Instant) (now : Instant)
    (identity : List Path) (compile : Except ε String) :
    Except ε (Artifact × Option Unit) × CacheManager σ :=
  m.obtain modified? now identity fun recorded =>
    compile.map fun code => (Artifact.new identity code recorded, ())

def invalidate (m : CacheManager σ) (identity : List Path) :
    Except StoreError Unit × CacheManager σ :=
  let r := ArtifactStore.remove m.store (m.keyOf identity)
  (r.1, { m with store := r.2 })

def clear (m : CacheManager σ) : Except StoreError Unit × CacheManager σ :=
  let r := ArtifactStore.clear m.store
  (r.1, { m with store := r.2 })

end CacheManager

end LayeredTags
