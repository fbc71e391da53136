import LayeredTags.Cache.Manager
import LayeredTags.Compile.Compiler
import LayeredTags.Mustache.Render
import LayeredTags.Source.Resolver

/-!
# The engine

An engine resolves, compiles, caches and renders templates by their logical names. A template is
compiled from every existing layer of its override chain, and its artifact is kept under the whole
list of candidates.

* `Engine.compileArtifact`: the artifact of a template, from the cache if it is usable.
* `Engine.render`, `Engine.renderSource`: rendering a template and a source.
* `Engine.register`: adding a tag, which drops the artifacts.
-/

namespace LayeredTags

/-- A store that stands beside a disk. -/
class HasDisk (σ : Type) where
  /-- the disk -/
  disk : σ → FileSystem

instance : HasDisk MemoryStore := ⟨fun _ => .empty⟩

instance : HasDisk RefusingStore := ⟨fun _ => .empty⟩

/-- A resolver, a compiler, a cache and the choice between permissive and strict rendering. -/
structure Engine (σ : Type) where
  resolver : Resolver
  compiler : Compiler
  cache : CacheManager σ
  strictRender : Bool

namespace Engine

variable {σ : Type}

def resolve (e : Engine σ) (name : String) : List Path :=
  e.resolver.resolve name

/-- Compiles the existing layers of a template, without the cache. -/
def compileFresh (e : Engine σ) (view : SourceView) (name : String) (identity : List Path)
    (recorded : Instant) : Except TemplateError (Artifact × Emission) :=
  match view.loadLayers name identity with
  | .ok layers => e.compiler.compileArtifact identity layers recorded
  | .error err => .error (.ofSourceError err)

def renderCode (e : Engine σ) (code : String) (context : Json) : Except EngineError String :=
  (Mustache.render e.strictRender code context).mapError fun err => .render err.message

/-- Compiles and renders a source. Nothing is cached. -/
def renderSource (e : Engine σ) (source : String) (context : Json) :
    Except EngineError (String × Emission) :=
  match e.compiler.compileSource source with
  | .error err => .error (.template err)
  | .ok emission => (e.renderCode emission.code context).map fun text => (text, emission)

/-- Changes the sources in memory; sources on the disk are not changed. -/
def changeSources (e : Engine σ) (change : MemorySources → MemorySources) : Engine σ :=
  match e.resolver.storehouse with
  | .memory sources =>
    { e with resolver := { e.resolver with storehouse := .memory (change sources) } }
  | .disk => e

variable [ArtifactStore σ]

def clearCache (e : Engine σ) : Except EngineError Unit × Engine σ :=
  let r := e.cache.clear
  (r.1.mapError .store, { e with cache := r.2 })

/-- Adds a tag. The artifacts were compiled without it and are dropped; a store that fails to drop
them does not stand in the way. -/
def register (e : Engine σ) (d : TagDefinition) : Engine σ :=
  ({ e with compiler := { e.compiler with registry := e.compiler.registry.register d } } :
    Engine σ).clearCache.2

variable [HasDisk σ]

def view (e : Engine σ) : SourceView :=
  e.resolver.view (HasDisk.disk e.cache.store)

/-- The artifact of a template. It is compiled if the cache has none that is usable; what compiling
yields stands beside it then. A template without an existing candidate is an error. -/
def compileArtifact (e : Engine σ) (now : Instant) (name : String) :
    Except EngineError (Artifact × Option Emission) × Engine σ :=
  let identity := e.resolve name
  if identity.any e.view.exists? then
    let r := e.cache.obtain e.view.modified? now identity (e.compileFresh e.view name identity)
    (r.1.mapError .template, { e with cache := r.2 })
  else (.error (.template (.noCandidate name)), e)

def render (e : Engine σ) (now : Instant) (name : String) (context : Json) :
    Except EngineError (String × Option Emission) × Engine σ :=
  let r := e.compileArtifact now name
  match r.1 with
  | .error err => (.error err, r.2)
  | .ok (artifact, report) =>
    ((e.renderCode artifact.code context).map fun text => (text, report), r.2)

def invalidate (e : Engine σ) (name : String) : Except StoreError Unit × Engine σ :=
  let r := e.cache.invalidate (e.resolve name)
  (r.1, { e with cache := r.2 })

end Engine

end LayeredTags
