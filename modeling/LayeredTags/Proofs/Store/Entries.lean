import LayeredTags.Store.Basic
import Mathlib.Logic.Function.Basic

/-!
# Stores whose operations work or fail

* `Outcome`: an operation has done its work, or it has failed and left everything as it was.
* `EntryStore`: a store that behaves as a map from keys to artifacts, but for operations that fail.
* The store in memory and the one that refuses operations are such stores.
-/

namespace LayeredTags

/-- What a store has under every key. -/
abbrev Entries := String → Option Artifact

/-- An operation on `before` that should come to `wanted` has done so, or it has failed and left the
entries as they were. -/
def Outcome (result : Except StoreError Unit) (before wanted after : Entries) : Prop :=
  (result = .ok () ∧ after = wanted) ∨ (∃ e, result = .error e) ∧ after = before

/-- A store with entries. Every operation may fail, and then leaves the entries as they were. -/
class EntryStore (σ : Type) [ArtifactStore σ] where
  /-- what is under a key, whether or not it can be loaded -/
  entries : σ → Entries
  load_cases : ∀ (s : σ) (key : String),
    ArtifactStore.load s key = .ok (entries s key) ∨ ∃ e, ArtifactStore.load s key = .error e
  outcome_save : ∀ (s : σ) (key : String) (a : Artifact),
    Outcome (ArtifactStore.save s key a).1 (entries s) (Function.update (entries s) key (some a))
      (entries (ArtifactStore.save s key a).2)
  outcome_remove : ∀ (s : σ) (key : String),
    Outcome (ArtifactStore.remove s key).1 (entries s) (Function.update (entries s) key none)
      (entries (ArtifactStore.remove s key).2)
  outcome_clear : ∀ s : σ,
    Outcome (ArtifactStore.clear s).1 (entries s) (fun _ => none)
      (entries (ArtifactStore.clear s).2)

namespace MemoryStore

theorem get?_insert_eq_update (m : MemoryStore) (key : String) (a : Artifact) :
    (m.insert key a).get? = Function.update m.get? key (some a) := by
  funext k
  rw [get?_insert, Function.update_apply]

theorem get?_erase_eq_update (m : MemoryStore) (key : String) :
    (m.erase key).get? = Function.update m.get? key none := by
  funext k
  rw [get?_erase, Function.update_apply]

end MemoryStore

instance : EntryStore MemoryStore where
  entries := MemoryStore.get?
  load_cases _ _ := .inl rfl
  outcome_save m key a := .inl ⟨rfl, m.get?_insert_eq_update key a⟩
  outcome_remove m key := .inl ⟨rfl, m.get?_erase_eq_update key⟩
  outcome_clear _ := .inl ⟨rfl, rfl⟩

theorem RefusingStore.outcome_change (s : RefusingStore) (operation : StoreOperation)
    {f : MemoryStore → MemoryStore} {wanted : Entries} (h : (f s.inner).get? = wanted) :
    Outcome (s.change operation f).1 s.inner.get? wanted (s.change operation f).2.inner.get? := by
  unfold change
  split
  · exact .inr ⟨⟨_, rfl⟩, rfl⟩
  · exact .inl ⟨rfl, h⟩

instance : EntryStore RefusingStore where
  entries s := s.inner.get?
  load_cases s key := by
    by_cases h : .load ∈ s.refused
    · exact .inr ⟨_, if_pos h⟩
    · exact .inl (if_neg h)
  outcome_save s key a := s.outcome_change .save (s.inner.get?_insert_eq_update key a)
  outcome_remove s key := s.outcome_change .remove (s.inner.get?_erase_eq_update key)
  outcome_clear s := s.outcome_change .clear rfl

end LayeredTags
