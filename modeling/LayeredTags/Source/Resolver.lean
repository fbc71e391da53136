import LayeredTags.Compile.Compiler
import LayeredTags.FileSystem
import LayeredTags.Source.Candidates

/-!
# Sources of templates

Sources are read from a disk or from memory. What a compilation can see of them at one moment is a
view.

* `SourceView`: reading a path and asking for its modification time.
* `MemorySources`, `ThemeSettings.view`: sources in memory and in theme directories.
* `SourceView.loadLayers`: the existing layers of a template.
-/

namespace LayeredTags

/-- What can be seen of the sources at one moment. -/
structure SourceView where
  /-- the text at a path, or nothing if there is none -/
  read : Path → Except SourceError (Option String)
  /-- when the source at a path was last changed, if it exists -/
  modified? : Path → Option Instant

namespace SourceView

def exists? (v : SourceView) (path : Path) : Bool :=
  (v.modified? path).isSome

/-- The existing ones of a list of sources, in order. -/
def readLayers (v : SourceView) : List Path → Except SourceError (List LayerSource)
  | [] => .ok []
  | path :: rest => do
    let text? ← v.read path
    let layers ← v.readLayers rest
    match text? with
    | some text => .ok (⟨path, text⟩ :: layers)
    | none => .ok layers

/-- The existing layers of a template, the most specific first; there must be one. -/
def loadLayers (v : SourceView) (name : String) (identity : List Path) :
    Except SourceError (List LayerSource) := do
  match ← v.readLayers identity with
  | [] => .error (.noCandidate name)
  | layers => .ok layers

end SourceView

/-! ## Sources in memory -/

/-- A source in memory. -/
structure StoredSource where
  path : Path
  text : String
  modified : Instant
  deriving DecidableEq, Repr, Inhabited

/-- Sources in memory, at most one for paths with the same components. -/
structure MemorySources where
  sources : List StoredSource
  deriving DecidableEq, Repr, Inhabited

namespace MemorySources

def empty : MemorySources := ⟨[]⟩

def get? (m : MemorySources) (path : Path) : Option StoredSource :=
  m.sources.find? fun s => s.path.Same path

def remove (m : MemorySources) (path : Path) : MemorySources :=
  ⟨m.sources.filter fun s => ¬ s.path.Same path⟩

def add (m : MemorySources) (path : Path) (text : String) (modified : Instant) : MemorySources :=
  ⟨⟨path, text, modified⟩ :: (m.remove path).sources⟩

/-- Changes the modification time of a source that exists. -/
def touch (m : MemorySources) (path : Path) (modified : Instant) : MemorySources :=
  ⟨m.sources.map fun s => if s.path.Same path then { s with modified := modified } else s⟩

def size (m : MemorySources) : Nat :=
  m.sources.length

def view (m : MemorySources) : SourceView where
  read path := .ok ((m.get? path).map (·.text))
  modified? path := (m.get? path).map (·.modified)

end MemorySources

/-! ## Sources in theme directories -/

namespace ThemeSettings

def outsideMessage : String :=
  "outside the configured theme directories"

/-- Reads a source. The path must lie in a theme directory by its components. -/
def read (t : ThemeSettings) (disk : FileSystem) (path : Path) :
    Except SourceError (Option String) :=
  if ∃ dir ∈ t.directories, path.Under dir then
    match disk.readText path with
    | .ok text => .ok (some text)
    | .error .notFound => .ok none
    | .error e => .error (.loadFailed path.text e.message)
  else .error (.loadFailed path.text outsideMessage)

def view (t : ThemeSettings) (disk : FileSystem) : SourceView where
  read := t.read disk
  modified? := disk.modified?

end ThemeSettings

/-! ## Resolvers -/

/-- Where the sources of templates are: in memory or on the disk. -/
inductive Storehouse where
  | memory (sources : MemorySources)
  | disk
  deriving Repr, Inhabited

/-- Theme directories and the place of their sources. -/
structure Resolver where
  settings : ThemeSettings
  storehouse : Storehouse
  deriving Repr, Inhabited

namespace Resolver

def name (r : Resolver) : String :=
  match r.storehouse with
  | .memory _ => "InMemoryResolver"
  | .disk => "ThemeResolver"

def resolve (r : Resolver) (template : String) : List Path :=
  r.settings.candidates template

def view (r : Resolver) (disk : FileSystem) : SourceView :=
  match r.storehouse with
  | .memory sources => sources.view
  | .disk => r.settings.view disk

end Resolver

end LayeredTags
