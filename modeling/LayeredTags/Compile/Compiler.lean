import LayeredTags.Artifact.Basic
import LayeredTags.Compile.Pass
import LayeredTags.Error
import LayeredTags.Node.Builder

/-!
# Compiling templates

* `Compiler`: a registry and the choice between permissive and strict mode.
* `Compiler.compileLayers`: an override chain of sources, the most specific first.
* `Compiler.compileSource`: a single source.
* `Compiler.compileArtifact`: a chain compiled for the cache.
-/

namespace LayeredTags

/-- A source of one layer. -/
structure LayerSource where
  path : Path
  text : String
  deriving DecidableEq, Repr, Inhabited

/-- A registry, and whether templates with mistakes are rejected. -/
structure Compiler where
  registry : Registry
  strict : Bool
  deriving Inhabited

namespace Compiler

/-- Compiles the first tree of a chain in the context of all of them. No tree leaves no code. -/
def compileRoots (registry : Registry) (roots : List Node) : Emission :=
  match roots with
  | [] => .empty
  | root :: _ => ((CompileContext.ofRoots registry roots).compile (some 0) root).1

/-- What an override chain yields when mistakes are recovered from: those of reading every layer
come first, those of compiling behind them. -/
def permissive (registry : Registry) (sources : List String) : Emission :=
  let parsed := sources.map parse
  let emission := compileRoots registry (parsed.map (·.root))
  { emission with diagnostics := parsed.flatMap (·.diagnostics) ++ emission.diagnostics }

/-- Compiles an override chain, the most specific layer first. In strict mode any mistake is an
error. -/
def compileLayers (c : Compiler) (sources : List String) : Except TemplateError Emission :=
  let emission := permissive c.registry sources
  if c.strict ∧ emission.diagnostics ≠ [] then .error (.strict emission.diagnostics)
  else .ok emission

def compileSource (c : Compiler) (source : String) : Except TemplateError Emission :=
  c.compileLayers [source]

/-- Compiles the layers that were loaded for the given identity. -/
def compileArtifact (c : Compiler) (identity : List Path) (layers : List LayerSource)
    (recorded : Instant) : Except TemplateError (Artifact × Emission) :=
  (c.compileLayers (layers.map (·.text))).map fun emission =>
    ({ Artifact.new identity emission.code recorded with diagnostics := emission.diagnostics },
      emission)

end Compiler

end LayeredTags
