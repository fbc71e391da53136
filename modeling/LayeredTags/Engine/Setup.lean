import LayeredTags.CoreTags
import LayeredTags.Engine.Basic
import LayeredTags.Engine.Settings
import LayeredTags.Store.Storage

/-!
# Setting up an engine

* `EngineSetup.build`: an engine of some choices, beside a disk.
* `EngineSetup.ofSettings`: the choices that settings make.

The core tags are registered first and the other tags behind them, so that later tags override
earlier ones.
-/

namespace LayeredTags

instance : HasDisk Storage := ⟨(·.disk)⟩

/-- The choices for an engine. -/
structure EngineSetup where
  /-- theme directories, for sources on the disk -/
  directories : List Path
  extension : Option String
  /-- a resolver to use instead of one for the theme directories -/
  resolver : Option Resolver
  cacheDirectory : Option Path
  /-- a store to use instead of one in the cache directory or in memory -/
  shelf : Option Shelf
  strict : Bool
  strictRender : Bool
  coreTags : Bool
  tags : List TagDefinition

namespace EngineSetup

def empty : EngineSetup := ⟨[], none, none, none, none, false, false, true, []⟩

def ofSettings (s : EngineSettings) : EngineSetup :=
  { empty with
    directories := s.themeDirectories
    extension := some s.extension
    cacheDirectory := s.cacheDirectory
    strict := s.strict
    strictRender := s.strictRender }

def noSourcesMessage : String :=
  "No theme directory has been configured. Use `with_theme_dir` or `with_resolver`."

def resolver? (s : EngineSetup) : Except EngineError Resolver :=
  match s.resolver with
  | some resolver => .ok resolver
  | none =>
    if s.directories = [] then .error (.settings noSourcesMessage)
    else .ok ⟨⟨s.directories, s.extension.getD defaultExtension⟩, .disk⟩

def chosenShelf (s : EngineSetup) : Shelf :=
  match s.shelf, s.cacheDirectory with
  | some shelf, _ => shelf
  | none, some path => .directory path
  | none, none => .memory .empty

def registry (s : EngineSetup) : Registry :=
  (if s.coreTags then CoreTags.registry else .empty).registerAll s.tags

/-- The engine of the choices, beside a disk. -/
def build (s : EngineSetup) (disk : FileSystem) : Except EngineError (Engine Storage) :=
  s.resolver?.map fun resolver =>
    ⟨resolver, ⟨s.registry, s.strict⟩, .new ⟨s.chosenShelf, disk⟩, s.strictRender⟩

/-- The engine of settings, which must be valid. -/
def buildFrom (settings : EngineSettings) (disk : FileSystem) :
    Except EngineError (Engine Storage) :=
  match settings.validate with
  | .error e => .error e
  | .ok () => (ofSettings settings).build disk

end EngineSetup

end LayeredTags
