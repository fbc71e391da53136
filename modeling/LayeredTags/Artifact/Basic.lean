import LayeredTags.Diagnostic
import LayeredTags.Instant
import LayeredTags.Path

/-!
# Compiled artifacts

* `Artifact`: the cached result of compiling one template.
* `Artifact.isFresh`: no source is newer than the artifact.
-/

namespace LayeredTags

/-- The result of compiling a template. -/
structure Artifact where
  /-- every path that was considered, the most specific first, whether it existed or not -/
  identity : List Path
  code : String
  recorded : Instant
  /-- the paths that existed when the code was compiled -/
  existing : List Path
  /-- the mistakes that were recovered from -/
  diagnostics : List Diagnostic
  deriving DecidableEq, Repr, Inhabited

namespace Artifact

def new (identity : List Path) (code : String) (recorded : Instant) : Artifact :=
  ⟨identity, code, recorded, [], []⟩

/-- No given modification time lies behind the recorded time. -/
def isFresh (a : Artifact) (modified : List Instant) : Bool :=
  modified.all fun t => t ≤ a.recorded

theorem isFresh_iff (a : Artifact) (modified : List Instant) :
    a.isFresh modified = true ↔ ∀ t ∈ modified, t ≤ a.recorded := by
  simp [isFresh]

end Artifact

end LayeredTags
