import LayeredTags.Engine.Basic
import LayeredTags.Proofs.Cache.Manager
import LayeredTags.Proofs.Source.View
import LayeredTags.Proofs.Store.Held

/-!
# What a caller sees of a template

* `Engine.fromSources`: what compiling the sources of a template yields, whatever the cache holds.
* `Engine.emission_eq_ok_iff`: what compiling yields, from the texts of the sources.
* `Engine.outcome`: the code and the mistakes that a caller gets, or the error.
* `Engine.compileArtifact_of_absent`, `_of_cached`, `_of_error`, `_of_ok`: the four ways in which a
  call can go.
* `Engine.compileArtifact_engine`: what a call leaves behind.
* `Engine.outcome_of_cached?_eq_none`, `Engine.outcome_cases`: without a usable artifact the caller
  gets what compiling the sources yields.
* `Engine.Holds`: the store holds an artifact of a template.
-/

namespace LayeredTags

theorem Compiler.compileLayers_of_lenient {c : Compiler} (h : c.strict = false)
    (sources : List String) : c.compileLayers sources = .ok (permissive c.registry sources) := by
  rw [compileLayers, if_neg (by simp [h])]

namespace Engine

variable {σ : Type} [HasDisk σ]

/-! ## Compiling the sources -/

def isPresent (e : Engine σ) (name : String) : Bool :=
  (e.resolve name).any e.view.exists?

/-- What compiling the existing layers of a template yields. -/
def emission (e : Engine σ) (name : String) : Except TemplateError Emission :=
  match e.view.loadLayers name (e.resolve name) with
  | .ok layers => e.compiler.compileLayers (layers.map (·.text))
  | .error err => .error (.ofSourceError err)

/-- The code and the mistakes that compiling the sources of a template yields, whatever the cache
holds. -/
def fromSources (e : Engine σ) (name : String) : Except EngineError (String × List Diagnostic) :=
  if e.isPresent name then
    ((e.emission name).mapError .template).map fun emission =>
      (emission.code, emission.diagnostics)
  else .error (.template (.noCandidate name))

/-- The artifact that stands for what compiling a template yields. -/
def artifact (e : Engine σ) (now : Instant) (name : String) (emission : Emission) : Artifact where
  identity := e.resolve name
  code := emission.code
  recorded := CacheManager.recordedTime e.view.modified? now (e.resolve name)
  existing := CacheManager.existing e.view.modified? (e.resolve name)
  diagnostics := emission.diagnostics

theorem compileFresh_eq (e : Engine σ) (name : String) (recorded : Instant) :
    e.compileFresh e.view name (e.resolve name) recorded =
      (e.emission name).map fun emission =>
        ({ Artifact.new (e.resolve name) emission.code recorded with
            diagnostics := emission.diagnostics }, emission) := by
  rw [compileFresh, emission]
  cases e.view.loadLayers name (e.resolve name) with
  | error err => rfl
  | ok layers => rfl

theorem emission_eq_ok_iff {e : Engine σ} {name : String} {emission : Emission} :
    e.emission name = .ok emission ↔ ∃ ts, e.view.texts (e.resolve name) = .ok ts ∧ ts ≠ [] ∧
      e.compiler.compileLayers ts = .ok emission := by
  unfold Engine.emission SourceView.loadLayers SourceView.texts
  cases e.view.readLayers (e.resolve name) with
  | error err => simp [bind, Except.bind, Except.map]
  | ok layers =>
    cases layers with
    | nil => simp [bind, Except.bind, Except.map]
    | cons layer rest => simp [bind, Except.bind, Except.map]

theorem emission_of_lenient {e : Engine σ} {name : String} {ts : List String}
    (h : e.compiler.strict = false) (htexts : e.view.texts (e.resolve name) = .ok ts)
    (hne : ts ≠ []) : e.emission name = .ok (Compiler.permissive e.compiler.registry ts) :=
  emission_eq_ok_iff.mpr ⟨ts, htexts, hne, Compiler.compileLayers_of_lenient h ts⟩

theorem fromSources_congr {e other : Engine σ} {name : String}
    (hresolver : e.resolver = other.resolver) (hcompiler : e.compiler = other.compiler)
    (hagree : e.view.AgreeOn other.view (e.resolve name)) :
    e.fromSources name = other.fromSources name := by
  have hresolve : e.resolve name = other.resolve name := by rw [resolve, resolve, hresolver]
  have hlayers : e.view.loadLayers name (e.resolve name) =
      other.view.loadLayers name (e.resolve name) := by
    rw [SourceView.loadLayers, SourceView.loadLayers, hagree.readLayers_eq]
  have hpresent : e.isPresent name = other.isPresent name := by
    rw [isPresent, isPresent, ← hresolve]
    exact hagree.any_exists?
  rw [fromSources, fromSources, hpresent, emission, emission, hlayers, hresolve, hcompiler]

/-! ## Compiling with the cache -/

variable [ArtifactStore σ]

def outcome (e : Engine σ) (now : Instant) (name : String) :
    Except EngineError (String × List Diagnostic) :=
  (e.compileArtifact now name).1.map fun r => (r.1.code, r.1.diagnostics)

def cached? (e : Engine σ) (name : String) : Option Artifact :=
  e.cache.lookup e.view.modified? (e.resolve name)

def keep (e : Engine σ) (name : String) (a : Artifact) : Engine σ :=
  { e with
    cache := { e.cache with
      store := (ArtifactStore.save e.cache.store (e.cache.keyOf (e.resolve name)) a).2 } }

variable {e : Engine σ} {now : Instant} {name : String} {a : Artifact} {emission : Emission}
  {err : TemplateError}

theorem compileArtifact_of_absent (h : e.isPresent name = false) :
    e.compileArtifact now name = (.error (.template (.noCandidate name)), e) := by
  rw [isPresent] at h
  simp only [compileArtifact, h, Bool.false_eq_true, if_false]

theorem compileArtifact_of_cached (h : e.isPresent name = true)
    (hcached : e.cached? name = some a) : e.compileArtifact now name = (.ok (a, none), e) := by
  rw [isPresent] at h
  simp only [compileArtifact, h, if_true, CacheManager.obtain_of_lookup_eq_some hcached]
  rfl

theorem compileArtifact_of_error (h : e.isPresent name = true) (hcached : e.cached? name = none)
    (herror : e.emission name = .error err) :
    e.compileArtifact now name = (.error (.template err), e) := by
  have hfresh : e.compileFresh e.view name (e.resolve name)
      (CacheManager.recordedTime e.view.modified? now (e.resolve name)) = .error err := by
    rw [compileFresh_eq, herror]
    rfl
  rw [isPresent] at h
  simp only [compileArtifact, h, if_true, CacheManager.obtain_of_error hcached hfresh]
  rfl

theorem compileArtifact_of_ok (h : e.isPresent name = true) (hcached : e.cached? name = none)
    (hok : e.emission name = .ok emission) :
    e.compileArtifact now name = (.ok (e.artifact now name emission, some emission),
      e.keep name (e.artifact now name emission)) := by
  have hfresh : e.compileFresh e.view name (e.resolve name)
      (CacheManager.recordedTime e.view.modified? now (e.resolve name)) =
      .ok ({ Artifact.new (e.resolve name) emission.code
        (CacheManager.recordedTime e.view.modified? now (e.resolve name)) with
          diagnostics := emission.diagnostics }, emission) := by
    rw [compileFresh_eq, hok]
    rfl
  rw [isPresent] at h
  simp only [compileArtifact, h, if_true, CacheManager.obtain_of_ok hcached hfresh]
  rfl

theorem compileArtifact_engine (e : Engine σ) (now : Instant) (name : String) :
    (e.compileArtifact now name).2 = e ∨ ∃ emission, e.emission name = .ok emission ∧
      (e.compileArtifact now name).2 = e.keep name (e.artifact now name emission) := by
  cases hpresent : e.isPresent name with
  | false => exact .inl (by rw [compileArtifact_of_absent hpresent])
  | true =>
    cases hcached : e.cached? name with
    | some a => exact .inl (by rw [compileArtifact_of_cached hpresent hcached])
    | none =>
      cases hemission : e.emission name with
      | error err => exact .inl (by rw [compileArtifact_of_error hpresent hcached hemission])
      | ok emission =>
        exact .inr ⟨emission, rfl, by rw [compileArtifact_of_ok hpresent hcached hemission]⟩

theorem outcome_of_cached?_eq_none (h : e.cached? name = none) :
    e.outcome now name = e.fromSources name := by
  rw [outcome, fromSources]
  cases hpresent : e.isPresent name with
  | false =>
    rw [compileArtifact_of_absent hpresent]
    rfl
  | true =>
    cases hemission : e.emission name with
    | error err =>
      rw [compileArtifact_of_error hpresent h hemission]
      rfl
    | ok emission =>
      rw [compileArtifact_of_ok hpresent h hemission]
      rfl

/-- A caller gets what compiling the sources yields, or a usable artifact. -/
theorem outcome_cases (e : Engine σ) (now : Instant) (name : String) :
    e.outcome now name = e.fromSources name ∨ ∃ a, e.isPresent name = true ∧
      e.cached? name = some a ∧ e.outcome now name = .ok (a.code, a.diagnostics) := by
  cases hcached : e.cached? name with
  | none => exact .inl (outcome_of_cached?_eq_none hcached)
  | some a =>
    cases hpresent : e.isPresent name with
    | false =>
      refine .inl ?_
      rw [outcome, fromSources, compileArtifact_of_absent hpresent, hpresent]
      rfl
    | true =>
      refine .inr ⟨a, rfl, rfl, ?_⟩
      rw [outcome, compileArtifact_of_cached hpresent hcached]
      rfl

/-! ## What the store holds -/

variable [HoldingStore σ]

/-- The store holds the artifact under the key of the template. -/
def Holds (e : Engine σ) (name : String) (a : Artifact) : Prop :=
  HoldingStore.Holds e.cache.store (e.cache.keyOf (e.resolve name)) a

theorem holds_of_cached? (h : e.cached? name = some a) : e.Holds name a :=
  HoldingStore.holds_of_load (CacheManager.lookup_eq_some_iff.mp h).1

omit [HasDisk σ] in
theorem holds_of_keep {other : String} {b : Artifact} (h : (e.keep other b).Holds name a) :
    a = b ∨ e.Holds name a :=
  HoldingStore.holds_of_save h

omit [HasDisk σ] in
theorem holds_of_register {definition : TagDefinition}
    (h : (e.register definition).Holds name a) : e.Holds name a :=
  HoldingStore.holds_of_clear h

end Engine

end LayeredTags
