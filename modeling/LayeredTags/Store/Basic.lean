import LayeredTags.Artifact.Basic
import LayeredTags.Error

/-!
# Stores of artifacts

A store keeps artifacts under keys. It does not judge whether they are fresh.

* `ArtifactStore`: the operations of a store; each may fail, and may have changed the store when it
  does.
* `MemoryStore`: artifacts in memory.
* `RefusingStore`: artifacts in memory, with some operations that always fail.
-/

namespace LayeredTags

/-- The operations of a store of artifacts. -/
class ArtifactStore (σ : Type) where
  /-- the artifact under a key -/
  load : σ → String → Except StoreError (Option Artifact)
  /-- stores an artifact in place of an earlier one -/
  save : σ → String → Artifact → Except StoreError Unit × σ
  /-- removes the artifact under a key -/
  remove : σ → String → Except StoreError Unit × σ
  /-- removes every artifact -/
  clear : σ → Except StoreError Unit × σ

/-! ## In memory -/

/-- Artifacts in memory, at most one under a key. -/
structure MemoryStore where
  entries : List (String × Artifact)
  deriving DecidableEq, Repr, Inhabited

namespace MemoryStore

def empty : MemoryStore := ⟨[]⟩

def get? (m : MemoryStore) (key : String) : Option Artifact :=
  m.entries.lookup key

def erase (m : MemoryStore) (key : String) : MemoryStore :=
  ⟨m.entries.filter (·.1 ≠ key)⟩

def insert (m : MemoryStore) (key : String) (a : Artifact) : MemoryStore :=
  ⟨(key, a) :: (m.erase key).entries⟩

def size (m : MemoryStore) : Nat :=
  m.entries.length

theorem get?_empty (key : String) : empty.get? key = none := rfl

theorem get?_erase (m : MemoryStore) (key k : String) :
    (m.erase key).get? k = if k = key then none else m.get? k := by
  obtain ⟨entries⟩ := m
  simp only [get?, erase]
  induction entries with
  | nil => simp
  | cons entry rest ih =>
    obtain ⟨n, a⟩ := entry
    by_cases hn : n = key
    · subst hn
      simp only [ne_eq, not_true_eq_false, decide_false, List.filter_cons, Bool.false_eq_true,
        if_false, ih]
      by_cases hk : k = n
      · simp [hk]
      · simp [hk, List.lookup_cons, beq_eq_false_iff_ne.2 hk]
    · by_cases hk : k = n
      · subst hk
        simp [hn]
      · simpa [hn, List.lookup_cons, beq_eq_false_iff_ne.2 hk] using ih

theorem get?_insert (m : MemoryStore) (key k : String) (a : Artifact) :
    (m.insert key a).get? k = if k = key then some a else m.get? k := by
  by_cases hk : k = key
  · simp [get?, insert, hk]
  · simpa [get?, insert, hk, List.lookup_cons, beq_eq_false_iff_ne.2 hk] using get?_erase m key k

end MemoryStore

instance : ArtifactStore MemoryStore where
  load m key := .ok (m.get? key)
  save m key a := (.ok (), m.insert key a)
  remove m key := (.ok (), m.erase key)
  clear _ := (.ok (), .empty)

/-! ## With failures -/

inductive StoreOperation where
  | load
  | save
  | remove
  | clear
  deriving DecidableEq, Repr, Inhabited

def StoreOperation.name : StoreOperation → String
  | load => "load"
  | save => "store"
  | remove => "remove"
  | clear => "clear"

/-- Artifacts in memory, and the operations that fail without doing anything. -/
structure RefusingStore where
  refused : List StoreOperation
  inner : MemoryStore
  deriving DecidableEq, Repr, Inhabited

namespace RefusingStore

def refusal (operation : StoreOperation) : StoreError :=
  .io (operation.name ++ " refused")

/-- Changes the artifacts unless the operation is refused. -/
def change (s : RefusingStore) (operation : StoreOperation) (f : MemoryStore → MemoryStore) :
    Except StoreError Unit × RefusingStore :=
  if operation ∈ s.refused then (.error (refusal operation), s)
  else (.ok (), { s with inner := f s.inner })

end RefusingStore

instance : ArtifactStore RefusingStore where
  load s key := if .load ∈ s.refused then .error (RefusingStore.refusal .load)
    else .ok (s.inner.get? key)
  save s key a := s.change .save (·.insert key a)
  remove s key := s.change .remove (·.erase key)
  clear s := s.change .clear fun _ => .empty

end LayeredTags
