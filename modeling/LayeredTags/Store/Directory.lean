import LayeredTags.Artifact.Format
import LayeredTags.FileSystem
import LayeredTags.Store.Basic

/-!
# Artifacts in a directory

Every artifact is a file named after its key. It is written to a temporary file that is then moved
to its name, so that an artifact is never seen half written; if any step fails the temporary file
is removed.

* `DirectoryStore`: a directory on a disk as a store of artifacts.
-/

namespace LayeredTags

def artifactExtension : String := "json"

/-- A directory on a disk. It is made when the first artifact is stored. -/
structure DirectoryStore where
  directory : Path
  disk : FileSystem
  deriving Repr, Inhabited

namespace DirectoryStore

def osError (e : OsError) : StoreError :=
  .io e.message

def path (s : DirectoryStore) (key : String) : Path :=
  s.directory.join (key ++ "." ++ artifactExtension)

def load (s : DirectoryStore) (key : String) : Except StoreError (Option Artifact) :=
  match s.disk.read (s.path key) with
  | .ok content => ((Artifact.read content).map some).mapError .format
  | .error .notFound => .ok none
  | .error e => .error (osError e)

/-- Moves the text of an artifact to its place by way of a temporary file that exists already. -/
def persist (s : DirectoryStore) (key : String) (a : Artifact) (temporary : Location) :
    Except StoreError Unit × DirectoryStore :=
  match a.write with
  | .error fault => (.error (.format fault), { s with disk := s.disk.erase temporary })
  | .ok text =>
    let written := s.disk.write temporary (.ofString text)
    match written.rename temporary (s.path key) with
    | .ok disk => (.ok (), { s with disk := disk })
    | .error e =>
      (.error (.persist (s.path key).text e.message), { s with disk := written.erase temporary })

/-- Stores an artifact under a key. The directories that could be made stay even if it fails. -/
def save (s : DirectoryStore) (key : String) (a : Artifact) :
    Except StoreError Unit × DirectoryStore :=
  match s.disk.createDirectories s.directory with
  | (.error e, disk) => (.error (osError e), { s with disk := disk })
  | (.ok (), disk) =>
    match disk.createTemporary s.directory with
    | .error e => (.error (osError e), { s with disk := disk })
    | .ok (temporary, disk) => ({ s with disk := disk } : DirectoryStore).persist key a temporary

def remove (s : DirectoryStore) (key : String) : Except StoreError Unit × DirectoryStore :=
  match s.disk.removeFile (s.path key) with
  | .ok disk => (.ok (), { s with disk := disk })
  | .error .notFound => (.ok (), s)
  | .error e => (.error (osError e), s)

/-- Removes files of the directory one after the other, up to the first that cannot be removed. -/
def removeEach (s : DirectoryStore) : List String → Except StoreError Unit × DirectoryStore
  | [] => (.ok (), s)
  | name :: rest =>
    match s.disk.removeFile (s.directory.join name) with
    | .ok disk => ({ s with disk := disk } : DirectoryStore).removeEach rest
    | .error e => (.error (osError e), s)

def clear (s : DirectoryStore) : Except StoreError Unit × DirectoryStore :=
  match s.disk.list s.directory with
  | .ok names => s.removeEach (names.filter fun n => Path.extension? n = some artifactExtension)
  | .error .notFound => (.ok (), s)
  | .error e => (.error (osError e), s)

end DirectoryStore

instance : ArtifactStore DirectoryStore where
  load := DirectoryStore.load
  save := DirectoryStore.save
  remove := DirectoryStore.remove
  clear := DirectoryStore.clear

end LayeredTags
