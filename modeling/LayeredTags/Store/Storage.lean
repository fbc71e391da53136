import LayeredTags.Store.Directory

/-!
# The storage of an engine

An engine runs beside a disk and keeps artifacts in memory, in a directory of that disk, or in
memory with failures.

* `Storage`: the kind of store and the disk, together a store of artifacts.
-/

namespace LayeredTags

/-- Where artifacts are kept. -/
inductive Shelf where
  | memory (m : MemoryStore)
  | directory (path : Path)
  | refusing (s : RefusingStore)
  deriving Repr, Inhabited

/-- Where artifacts are kept, beside a disk. -/
structure Storage where
  shelf : Shelf
  disk : FileSystem
  deriving Repr, Inhabited

namespace Storage

def name (s : Storage) : String :=
  match s.shelf with
  | .memory _ => "InMemoryCacheStore"
  | .directory _ => "FilesystemCacheStore"
  | .refusing _ => "FailingStore"

/-- The number of artifacts in memory; a directory is not counted. -/
def size (s : Storage) : Nat :=
  match s.shelf with
  | .memory m => m.size
  | .directory _ => 0
  | .refusing r => r.inner.size

/-- Runs a change of the store that the shelf stands for. -/
def change (s : Storage)
    (f : {σ : Type} → [ArtifactStore σ] → σ → Except StoreError Unit × σ) :
    Except StoreError Unit × Storage :=
  match s.shelf with
  | .memory m =>
    let r := f m
    (r.1, { s with shelf := .memory r.2 })
  | .directory path =>
    let r := f (DirectoryStore.mk path s.disk)
    (r.1, { s with disk := r.2.disk })
  | .refusing m =>
    let r := f m
    (r.1, { s with shelf := .refusing r.2 })

end Storage

instance : ArtifactStore Storage where
  load s key :=
    match s.shelf with
    | .memory m => ArtifactStore.load m key
    | .directory path => (DirectoryStore.mk path s.disk).load key
    | .refusing m => ArtifactStore.load m key
  save s key a := s.change fun t => ArtifactStore.save t key a
  remove s key := s.change fun t => ArtifactStore.remove t key
  clear s := s.change fun t => ArtifactStore.clear t

end LayeredTags
