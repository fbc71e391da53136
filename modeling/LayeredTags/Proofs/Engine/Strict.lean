import LayeredTags.Engine.Setup
import LayeredTags.Proofs.Engine.Outcome

/-!
# Strict engines and the cache

Whether a template is clean is decided when it is compiled. A usable artifact is handed out as it
is, whoever has stored it.

* `Engine.strict_ok_iff`, `Engine.strict_error_iff`: what a strict engine answers.
-/

namespace LayeredTags

theorem TemplateError.ofSourceError_ne_strict (err : SourceError) (diagnostics : List Diagnostic) :
    ofSourceError err ≠ .strict diagnostics := by
  intro h
  cases err <;> cases h

namespace Engine

variable {σ : Type} [HasDisk σ] {e : Engine σ} {now : Instant} {name : String} {a : Artifact}
  {found : Emission} {diagnostics : List Diagnostic}

def lenient (e : Engine σ) : Engine σ :=
  { e with compiler := { e.compiler with strict := false } }

/-! ## Compiling the sources -/

/-- A strict engine rejects the mistakes that a permissive one recovers from. Sources that cannot be
loaded are an error to both, and another one. -/
theorem emission_cases_of_strict (h : e.compiler.strict = true) (name : String) :
    (∃ err, (∀ diagnostics, err ≠ .strict diagnostics) ∧ e.lenient.emission name = .error err ∧
      e.emission name = .error err) ∨
    ∃ met : Emission, e.lenient.emission name = .ok met ∧ e.emission name =
      if met.diagnostics = [] then .ok met else .error (.strict met.diagnostics) := by
  have hload : e.lenient.view.loadLayers name (e.lenient.resolve name) =
      e.view.loadLayers name (e.resolve name) := rfl
  rw [emission, emission, hload]
  cases e.view.loadLayers name (e.resolve name) with
  | error err => exact .inl ⟨_, TemplateError.ofSourceError_ne_strict err, rfl, rfl⟩
  | ok layers =>
    refine .inr ⟨Compiler.permissive e.compiler.registry (layers.map (·.text)), rfl, ?_⟩
    simp only [Compiler.compileLayers, h, true_and, ne_eq, ite_not]

theorem emission_eq_ok_of_strict (h : e.compiler.strict = true) :
    e.emission name = .ok found ↔ e.lenient.emission name = .ok found ∧ found.diagnostics = [] := by
  rcases emission_cases_of_strict h name with
    ⟨err, -, hlenient, hstrict⟩ | ⟨met, hlenient, hstrict⟩
  · simp only [hlenient, hstrict, reduceCtorEq, false_and]
  · rw [hlenient, hstrict, Except.ok.injEq]
    split
    · rename_i hclean
      simp only [Except.ok.injEq, iff_self_and]
      rintro rfl
      exact hclean
    · rename_i hmistakes
      simp only [reduceCtorEq, false_iff, not_and]
      rintro rfl
      exact hmistakes

theorem emission_eq_error_of_strict (h : e.compiler.strict = true) :
    e.emission name = .error (.strict diagnostics) ↔ diagnostics ≠ [] ∧
      ∃ found, e.lenient.emission name = .ok found ∧ found.diagnostics = diagnostics := by
  rcases emission_cases_of_strict h name with
    ⟨err, hother, hlenient, hstrict⟩ | ⟨met, hlenient, hstrict⟩
  · simp only [hlenient, hstrict, Except.error.injEq, hother, reduceCtorEq, false_and, exists_false,
      and_false]
  · simp only [hlenient, hstrict, Except.ok.injEq, exists_eq_left']
    split
    · rename_i hclean
      simp only [reduceCtorEq, false_iff, not_and]
      rintro hmistakes rfl
      exact hmistakes hclean
    · rename_i hmistakes
      simp only [Except.error.injEq, TemplateError.strict.injEq, iff_and_self]
      rintro rfl
      exact hmistakes

theorem exists_fromSources_eq_ok : (∃ code, e.fromSources name = .ok (code, diagnostics)) ↔
    e.isPresent name = true ∧ ∃ found, e.emission name = .ok found ∧
      found.diagnostics = diagnostics := by
  rw [fromSources]
  cases hpresent : e.isPresent name with
  | false => simp
  | true =>
    cases hemission : e.emission name with
    | error err => simp [Except.mapError, Except.map]
    | ok emission => simp [Except.mapError, Except.map]

/-! ## Compiling with the cache -/

variable [ArtifactStore σ]

theorem strict_ok_iff (h : e.compiler.strict = true) :
    ((∃ report, (e.compileArtifact now name).1 = .ok (a, report)) ∧ a.diagnostics ≠ []) ↔
      e.isPresent name = true ∧ e.cached? name = some a ∧ a.diagnostics ≠ [] := by
  cases hpresent : e.isPresent name with
  | false => simp [compileArtifact_of_absent hpresent]
  | true =>
    cases hcached : e.cached? name with
    | some b => simp [compileArtifact_of_cached hpresent hcached]
    | none =>
      cases hemission : e.emission name with
      | error err => simp [compileArtifact_of_error hpresent hcached hemission]
      | ok emission =>
        have hclean := ((emission_eq_ok_of_strict h).mp hemission).2
        simp only [compileArtifact_of_ok hpresent hcached hemission, Except.ok.injEq,
          Prod.mk.injEq, exists_and_left, exists_eq', and_true, reduceCtorEq, false_and,
          and_false, iff_false, not_and]
        rintro rfl hmistakes
        exact hmistakes hclean

theorem strict_error_iff (h : e.compiler.strict = true) :
    (e.compileArtifact now name).1 = .error (.template (.strict diagnostics)) ↔
      e.cached? name = none ∧ diagnostics ≠ [] ∧
        ∃ code, e.lenient.fromSources name = .ok (code, diagnostics) := by
  rw [exists_fromSources_eq_ok, show e.lenient.isPresent name = e.isPresent name from rfl]
  cases hpresent : e.isPresent name with
  | false => simp [compileArtifact_of_absent hpresent]
  | true =>
    cases hcached : e.cached? name with
    | some b => simp [compileArtifact_of_cached hpresent hcached]
    | none =>
      rw [eq_self, true_and, eq_self, true_and, ← emission_eq_error_of_strict h]
      cases hemission : e.emission name with
      | error err => simp [compileArtifact_of_error hpresent hcached hemission]
      | ok emission => simp [compileArtifact_of_ok hpresent hcached hemission]

end Engine

end LayeredTags
