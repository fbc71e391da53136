import LayeredTags.FileSystem
import LayeredTags.Json.Decode
import LayeredTags.Source.Candidates

/-!
# Settings of an engine

Settings are one JSON object, in which every field may be missing and no other field may stand. The
object may also be written as an array of its fields in order, of any length up to theirs.

* `EngineSettings.encode`, `EngineSettings.write`: the object and its text.
* `EngineSettings.read`, `EngineSettings.load`: the settings of a text and of a file.
* `EngineSettings.validate`: there must be a theme directory.
-/

namespace LayeredTags

open Json (Fault Draft)
open Json.Decode

/-- The settings of an engine. -/
structure EngineSettings where
  /-- the theme directories, the most specific first -/
  themeDirectories : List Path
  extension : String
  /-- where artifacts are kept; in memory if it is missing -/
  cacheDirectory : Option Path
  /-- whether templates with mistakes are rejected -/
  strict : Bool
  /-- whether a value that is missing in the render context is an error -/
  strictRender : Bool
  deriving DecidableEq, Repr

namespace EngineSettings

def default : EngineSettings := ⟨[], defaultExtension, none, false, false⟩

instance : Inhabited EngineSettings := ⟨default⟩

def encode (s : EngineSettings) : Json :=
  .object
    [("theme_dirs", .array (s.themeDirectories.map fun p => .string p.text)),
      ("template_extension", .string s.extension),
      ("cache_dir", (s.cacheDirectory.map fun p => Json.string p.text).getD .null),
      ("strict", .bool s.strict), ("strict_render", .bool s.strictRender)]

def write (s : EngineSettings) : String :=
  s.encode.print

def decodePath (draft : Draft) : Except Fault Path :=
  (text draft).map Path.mk

structure Fields where
  themeDirectories : Option (List Path)
  extension : Option String
  cacheDirectory : Option (Option Path)
  strict : Option Bool
  strictRender : Option Bool

/-- The settings of some fields; the others have their usual values. -/
def Fields.settings (f : Fields) : EngineSettings :=
  ⟨f.themeDirectories.getD default.themeDirectories, f.extension.getD default.extension,
    f.cacheDirectory.getD default.cacheDirectory, f.strict.getD default.strict,
    f.strictRender.getD default.strictRender⟩

/-- Reads a field; no other fields are known. -/
def decodeField (f : Fields) (name : String) (value : Draft) : Except Fault Fields :=
  if name = "theme_dirs" then
    fill f.themeDirectories (list decodePath) value fun v => { f with themeDirectories := some v }
  else if name = "template_extension" then
    fill f.extension text value fun v => { f with extension := some v }
  else if name = "cache_dir" then
    fill f.cacheDirectory (optional decodePath) value fun v => { f with cacheDirectory := some v }
  else if name = "strict" then fill f.strict truth value fun v => { f with strict := some v }
  else if name = "strict_render" then
    fill f.strictRender truth value fun v => { f with strictRender := some v }
  else .error .mismatched

def decode : Draft → Except Fault EngineSettings
  | .object fields fault =>
    (fold decodeField ⟨none, none, none, none, none⟩ fields fault).map Fields.settings
  | .array items fault => do
    let (themeDirectories, items) ← Items.next? ⟨items, fault⟩ (list decodePath)
    let (extension, items) ← items.next? text
    let (cacheDirectory, items) ← items.next? (optional decodePath)
    let (strict, items) ← items.next? truth
    let (strictRender, items) ← items.next? truth
    items.finish
      (Fields.settings ⟨themeDirectories, extension, cacheDirectory, strict, strictRender⟩)
  | draft => .error (mismatch draft)

def read (json : String) : Except EngineError EngineSettings :=
  (Json.readWith decode (.ofString json)).mapError .json

def load (disk : FileSystem) (path : Path) : Except EngineError EngineSettings :=
  match disk.readText path with
  | .ok json => read json
  | .error e =>
    .error (.io ("Failed to read config from '" ++ path.text ++ "': " ++ e.message))

def noDirectoriesMessage : String :=
  "no theme directories configured"

/-- Settings need a theme directory. -/
def validate (s : EngineSettings) : Except EngineError Unit :=
  if s.themeDirectories = [] then .error (.settings noDirectoriesMessage) else .ok ()

end EngineSettings

end LayeredTags
