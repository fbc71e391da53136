import LayeredTags.Proofs.Directory.Changes
import LayeredTags.Proofs.Store.Directory
import LayeredTags.Store.Storage

/-!
# What a store holds

A store may fail at any operation and may lose artifacts, but it makes none up: what it holds was
saved in it.

* `HoldingStore`: a store with that property.
* `DirectoryStore.Holds`: a directory holds under a key what the file of the key reads as.
* The stores in memory, the one that refuses operations, the directory and the storage of an engine
  are such stores.
-/

namespace LayeredTags

/-- A store that comes to hold an artifact only when it is saved, whether an operation succeeds or
not. -/
class HoldingStore (σ : Type) [ArtifactStore σ] where
  /-- the store holds an artifact under a key -/
  Holds : σ → String → Artifact → Prop
  holds_of_load : ∀ {s : σ} {key : String} {a : Artifact},
    ArtifactStore.load s key = .ok (some a) → Holds s key a
  holds_of_save : ∀ {s : σ} {key other : String} {a b : Artifact},
    Holds (ArtifactStore.save s key a).2 other b → b = a ∨ Holds s other b
  holds_of_clear : ∀ {s : σ} {key : String} {a : Artifact},
    Holds (ArtifactStore.clear s).2 key a → Holds s key a

/-! ## In memory -/

namespace MemoryStore

variable {m : MemoryStore} {key other : String} {a b : Artifact}

theorem eq_or_get?_of_insert (h : (m.insert key a).get? other = some b) :
    b = a ∨ m.get? other = some b := by
  rw [get?_insert] at h
  split at h
  · exact .inl (Option.some.inj h).symm
  · exact .inr h

end MemoryStore

instance : HoldingStore MemoryStore where
  Holds m key a := m.get? key = some a
  holds_of_load h := Except.ok.inj h
  holds_of_save := MemoryStore.eq_or_get?_of_insert
  holds_of_clear := nofun

theorem RefusingStore.get?_of_change {s : RefusingStore} {operation : StoreOperation}
    {f : MemoryStore → MemoryStore} {key : String} {a : Artifact}
    (h : (s.change operation f).2.inner.get? key = some a) :
    (f s.inner).get? key = some a ∨ s.inner.get? key = some a := by
  unfold change at h
  split at h
  · exact .inr h
  · exact .inl h

instance : HoldingStore RefusingStore where
  Holds s key a := s.inner.get? key = some a
  holds_of_load {s key a} h := by
    change (if _ then _ else Except.ok (s.inner.get? key)) = _ at h
    split at h
    · cases h
    · exact Except.ok.inj h
  holds_of_save h := by
    rcases RefusingStore.get?_of_change h with h | h
    · exact MemoryStore.eq_or_get?_of_insert h
    · exact .inr h
  holds_of_clear h := by
    rcases RefusingStore.get?_of_change h with h | h
    · cases h
    · exact h

/-! ## In a directory -/

namespace DirectoryStore

/-- The file of the key reads as the artifact. -/
def Holds (s : DirectoryStore) (key : String) (a : Artifact) : Prop :=
  ∃ content, s.disk.HoldsAt (s.disk.destination (s.path key)) content ∧
    Artifact.read content = .ok a

variable {s : DirectoryStore} {key other : String} {a b : Artifact} {content : Content}
  {location : Location}

theorem here_persist (s : DirectoryStore) (key : String) (a : Artifact) (temporary : Location) :
    (s.persist key a temporary).2.disk.here = s.disk.here := by
  rw [persist]
  split
  · rfl
  · dsimp only
    split
    · rename_i hmoved
      obtain ⟨_, _, -, -, -, rfl⟩ := FileSystem.rename_eq_ok hmoved
      rfl
    · rfl

theorem here_save (s : DirectoryStore) (key : String) (a : Artifact) :
    (s.save key a).2.disk.here = s.disk.here := by
  have hmade := (s.disk.grown_createDirectories s.directory).here
  rw [save]
  split
  · rename_i hdirectories
    rw [hdirectories] at hmade
    exact hmade
  · rename_i hdirectories
    rw [hdirectories] at hmade
    split
    · exact hmade
    · rename_i htemporary
      obtain ⟨_, -, -, rfl⟩ := FileSystem.createTemporary_eq_ok htemporary
      exact (here_persist ..).trans hmade

theorem holds_of_save (h : (s.save key a).2.Holds other b) : b = a ∨ s.Holds other b := by
  obtain ⟨content, hheld, hread⟩ := h
  rw [FileSystem.destination, here_save, path, directory_save] at hheld
  rcases holdsAt_save hheld with hold | rfl | ⟨text, hwrite, rfl⟩
  · exact .inr ⟨content, hold, hread⟩
  · rw [Artifact.read_nil] at hread
    cases hread
  · exact .inl (Artifact.eq_of_read_write hwrite hread)

theorem holds_of_clear (h : s.clear.2.Holds key a) : s.Holds key a := by
  obtain ⟨content, hheld, hread⟩ := h
  have hclear := clear_induction (s := s) (P := fun disk => disk.here = s.disk.here ∧
    ∀ l content, disk.HoldsAt l content → s.disk.HoldsAt l content) ⟨rfl, fun _ _ => id⟩ (by
      rintro _ - _ - - disk changed ⟨hhere, hold⟩ hremoved
      refine ⟨?_, fun l content hheld => hold l content (hheld.of_removeFile hremoved)⟩
      obtain ⟨_, _, _, -, -, rfl⟩ := FileSystem.removeFile_eq_ok hremoved
      exact hhere)
  obtain ⟨hdirectory, hhere, hold⟩ := hclear
  rw [FileSystem.destination, hhere, path, hdirectory] at hheld
  exact ⟨content, hold _ _ hheld, hread⟩

theorem Holds.of_mk {directory : Path} (h : Holds ⟨directory, s.disk⟩ key a)
    (hdirectory : s.directory = directory) : s.Holds key a := by
  subst hdirectory
  exact h

end DirectoryStore

instance : HoldingStore DirectoryStore where
  Holds := DirectoryStore.Holds
  holds_of_load := DirectoryStore.holdsAt_of_load
  holds_of_save := DirectoryStore.holds_of_save
  holds_of_clear := DirectoryStore.holds_of_clear

/-! ## On the shelf of an engine -/

/-- The store that the shelf stands for holds the artifact. -/
def Storage.Holds (s : Storage) (key : String) (a : Artifact) : Prop :=
  match s.shelf with
  | .memory m => HoldingStore.Holds m key a
  | .directory path => HoldingStore.Holds (DirectoryStore.mk path s.disk) key a
  | .refusing r => HoldingStore.Holds r key a

instance : HoldingStore Storage where
  Holds := Storage.Holds
  holds_of_load {s _ _} h := by
    obtain ⟨shelf, disk⟩ := s
    cases shelf <;> exact HoldingStore.holds_of_load h
  holds_of_save {s _ _ _ _} h := by
    obtain ⟨shelf, disk⟩ := s
    cases shelf with
    | memory | refusing => exact HoldingStore.holds_of_save h
    | directory path =>
      exact DirectoryStore.holds_of_save (s := ⟨path, disk⟩)
        (DirectoryStore.Holds.of_mk h DirectoryStore.directory_save)
  holds_of_clear {s _ _} h := by
    obtain ⟨shelf, disk⟩ := s
    cases shelf with
    | memory | refusing => exact HoldingStore.holds_of_clear h
    | directory path =>
      exact DirectoryStore.holds_of_clear (s := ⟨path, disk⟩)
        (DirectoryStore.Holds.of_mk h DirectoryStore.directory_clear)

end LayeredTags
