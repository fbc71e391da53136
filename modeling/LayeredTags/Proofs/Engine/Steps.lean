import LayeredTags.Proofs.Engine.Outcome
import Mathlib.Logic.Function.Iterate

/-!
# Compiling step by step

A call for a template looks at the sources at several moments: it looks for a usable artifact, reads
the clock, lists the candidates that exist, asks for their times and reads one after the other.
Others may change the sources between any two of these steps.

* `Workshop`: an engine, the time, and how far a call has come.
* `Workshop.advance`: one step of the call.
* `Workshop.becomes_answered`: left alone, the steps of a call come to `Engine.compileArtifact`.
* `Workshop.advance_engine`, `Workshop.advance_clock`: what a step changes.
-/

namespace LayeredTags

/-- What was found when a path was read. -/
structure Finding where
  path : Path
  text? : Option String

def Finding.layer? (r : Finding) : Option LayerSource :=
  r.text?.map (⟨r.path, ·⟩)

/-- How far a call has come. -/
inductive Stage where
  /-- no call is at work -/
  | idle
  /-- nothing has been looked at -/
  | called (name : String)
  /-- the template has an existing candidate -/
  | present (name : String)
  /-- the cache has nothing usable -/
  | missed (name : String)
  /-- the clock has been read -/
  | timed (name : String) (started : Instant)
  /-- the existing candidates have been listed -/
  | listed (name : String) (started : Instant) (existing : List Path)
  /-- the time to record is known; some candidates have been read and the rest has not -/
  | reading (name : String) (recorded : Instant) (existing : List Path) (found : List Finding)
    (rest : List Path)
  | answered (answer : Except EngineError (Artifact × Option Emission))

/-- An engine, the time, and the call that is at work. -/
structure Workshop (σ : Type) where
  engine : Engine σ
  clock : Instant
  stage : Stage

variable {σ : Type} [ArtifactStore σ]

/-- The last step of a call: the layers that were read are compiled and the artifact is stored. -/
def Engine.conclude (e : Engine σ) (name : String) (recorded : Instant) (existing : List Path) :
    List LayerSource → Except EngineError (Artifact × Option Emission) × Engine σ
  | [] => (.error (.template (.ofSourceError (.noCandidate name))), e)
  | layers =>
    match e.compiler.compileArtifact (e.resolve name) layers recorded with
    | .error err => (.error (.template err), e)
    | .ok (a, emission) =>
      let stored := { a with identity := e.resolve name, existing := existing }
      (.ok (stored, some emission), e.keep name stored)

namespace Engine

variable {e : Engine σ} {name : String} {recorded now : Instant} {existing : List Path}
  {layers : List LayerSource}

theorem conclude_of_error {err : TemplateError} (hne : layers ≠ [])
    (h : e.compiler.compileLayers (layers.map (·.text)) = .error err) :
    e.conclude name recorded existing layers = (.error (.template err), e) := by
  cases layers with
  | nil => exact absurd rfl hne
  | cons layer rest =>
    unfold conclude
    simp only [Compiler.compileArtifact, h]
    rfl

theorem conclude_of_ok {emission : Emission} (hne : layers ≠ [])
    (h : e.compiler.compileLayers (layers.map (·.text)) = .ok emission) :
    e.conclude name recorded existing layers =
      (.ok (⟨e.resolve name, emission.code, recorded, existing, emission.diagnostics⟩,
          some emission),
        e.keep name ⟨e.resolve name, emission.code, recorded, existing, emission.diagnostics⟩) := by
  cases layers with
  | nil => exact absurd rfl hne
  | cons layer rest =>
    unfold conclude
    simp only [Compiler.compileArtifact, h]
    rfl

variable [HasDisk σ]

theorem conclude_eq (hpresent : e.isPresent name = true) (hcached : e.cached? name = none)
    (hlayers : e.view.readLayers (e.resolve name) = .ok layers) :
    e.conclude name (CacheManager.recordedTime e.view.modified? now (e.resolve name))
      (CacheManager.existing e.view.modified? (e.resolve name)) layers =
        e.compileArtifact now name := by
  have hload : e.view.loadLayers name (e.resolve name) =
      if layers = [] then .error (.noCandidate name) else .ok layers := by
    rw [SourceView.loadLayers, hlayers]
    cases layers <;> rfl
  by_cases hne : layers = []
  · have hemission : e.emission name = .error (.ofSourceError (.noCandidate name)) := by
      rw [emission, hload, if_pos hne]
    rw [compileArtifact_of_error hpresent hcached hemission, hne]
    rfl
  · have hemission : e.emission name = e.compiler.compileLayers (layers.map (·.text)) := by
      rw [emission, hload, if_neg hne]
    cases hcompile : e.compiler.compileLayers (layers.map (·.text)) with
    | error err =>
      rw [compileArtifact_of_error hpresent hcached (hemission.trans hcompile),
        conclude_of_error hne hcompile]
    | ok emission =>
      rw [compileArtifact_of_ok hpresent hcached (hemission.trans hcompile),
        conclude_of_ok hne hcompile]
      rfl

end Engine

namespace Workshop

variable [HasDisk σ]

def advance (w : Workshop σ) : Workshop σ :=
  match w.stage with
  | .idle | .answered _ => w
  | .called name =>
    if w.engine.isPresent name then { w with stage := .present name }
    else { w with stage := .answered (.error (.template (.noCandidate name))) }
  | .present name =>
    match w.engine.cached? name with
    | some a => { w with stage := .answered (.ok (a, none)) }
    | none => { w with stage := .missed name }
  | .missed name => { w with stage := .timed name w.clock }
  | .timed name started =>
    { w with
      stage := .listed name started
        (CacheManager.existing w.engine.view.modified? (w.engine.resolve name)) }
  | .listed name started existing =>
    { w with
      stage := .reading name
        (CacheManager.recordedTime w.engine.view.modified? started (w.engine.resolve name))
        existing [] (w.engine.resolve name) }
  | .reading name recorded existing found (path :: rest) =>
    match w.engine.view.read path with
    | .error err => { w with stage := .answered (.error (.template (.ofSourceError err))) }
    | .ok text? =>
      { w with stage := .reading name recorded existing (found ++ [⟨path, text?⟩]) rest }
  | .reading name recorded existing found [] =>
    let r := w.engine.conclude name recorded existing (found.filterMap Finding.layer?)
    { w with engine := r.2, stage := .answered r.1 }

def Becomes (w w' : Workshop σ) : Prop :=
  ∃ n, advance^[n] w = w'

variable {e : Engine σ} {w w' : Workshop σ} {clock recorded : Instant} {name : String}
  {existing : List Path}

theorem Becomes.refl (w : Workshop σ) : w.Becomes w :=
  ⟨0, rfl⟩

theorem Becomes.of_advance (h : w.advance.Becomes w') : w.Becomes w' := by
  obtain ⟨n, hn⟩ := h
  exact ⟨n + 1, hn⟩

theorem becomes_of_readLayers_error {err : SourceError} {rest : List Path} (found : List Finding)
    (h : e.view.readLayers rest = .error err) :
    Becomes ⟨e, clock, .reading name recorded existing found rest⟩
      ⟨e, clock, .answered (.error (.template (.ofSourceError err)))⟩ := by
  induction rest generalizing found with
  | nil => cases h
  | cons path rest ih =>
    apply Becomes.of_advance
    rw [SourceView.readLayers] at h
    unfold advance
    simp only
    cases hread : e.view.read path with
    | error err' =>
      rw [hread] at h
      obtain rfl := Except.error.inj h
      exact .refl _
    | ok text? =>
      rw [hread] at h
      cases hrest : e.view.readLayers rest with
      | error err' =>
        rw [hrest] at h
        obtain rfl := Except.error.inj h
        exact ih _ hrest
      | ok layers =>
        rw [hrest] at h
        cases text? <;> cases h

theorem becomes_of_readLayers_ok {layers : List LayerSource} {rest : List Path}
    (found : List Finding) (h : e.view.readLayers rest = .ok layers) :
    Becomes ⟨e, clock, .reading name recorded existing found rest⟩
      ⟨(e.conclude name recorded existing (found.filterMap Finding.layer? ++ layers)).2, clock,
        .answered
          (e.conclude name recorded existing (found.filterMap Finding.layer? ++ layers)).1⟩ := by
  induction rest generalizing found layers with
  | nil =>
    obtain rfl := Except.ok.inj h
    rw [List.append_nil]
    exact .of_advance (.refl _)
  | cons path rest ih =>
    apply Becomes.of_advance
    rw [SourceView.readLayers] at h
    unfold advance
    simp only
    obtain ⟨text?, hread, h⟩ := exists_of_bind_eq_ok h
    obtain ⟨behind, hrest, h⟩ := exists_of_bind_eq_ok h
    rw [hread]
    have hlayers : (found ++ [Finding.mk path text?]).filterMap Finding.layer? ++ behind =
        found.filterMap Finding.layer? ++ layers := by
      cases text? with
      | none =>
        obtain rfl := Except.ok.inj h
        simp [Finding.layer?]
      | some text =>
        obtain rfl := Except.ok.inj h
        simp [Finding.layer?]
    rw [← hlayers]
    exact ih _ hrest

/-- **Steps of a call.** If nobody interferes, a call gets the answer of `compileArtifact` and
leaves the engine as `compileArtifact` does. -/
theorem becomes_answered (e : Engine σ) (clock : Instant) (name : String) :
    Becomes ⟨e, clock, .called name⟩
      ⟨(e.compileArtifact clock name).2, clock, .answered (e.compileArtifact clock name).1⟩ := by
  apply Becomes.of_advance
  cases hpresent : e.isPresent name with
  | false =>
    rw [Engine.compileArtifact_of_absent hpresent]
    unfold advance
    simp only [hpresent, Bool.false_eq_true, if_false]
    exact .refl _
  | true =>
    unfold advance
    simp only [hpresent, if_true]
    apply Becomes.of_advance
    cases hcached : e.cached? name with
    | some a =>
      rw [Engine.compileArtifact_of_cached hpresent hcached]
      unfold advance
      simp only [hcached]
      exact .refl _
    | none =>
      unfold advance
      simp only [hcached]
      -- the clock is read, the candidates are listed and the time to record is known
      apply Becomes.of_advance
      apply Becomes.of_advance
      apply Becomes.of_advance
      cases hlayers : e.view.readLayers (e.resolve name) with
      | error err =>
        have hemission : e.emission name = .error (.ofSourceError err) := by
          rw [Engine.emission, SourceView.loadLayers, hlayers]
          rfl
        rw [Engine.compileArtifact_of_error hpresent hcached hemission]
        exact becomes_of_readLayers_error [] hlayers
      | ok layers =>
        rw [← Engine.conclude_eq hpresent hcached hlayers]
        exact becomes_of_readLayers_ok [] hlayers

/-! ## What a step changes -/

theorem map_text_layers (found : List Finding) :
    (found.filterMap Finding.layer?).map (·.text) = found.filterMap (·.text?) := by
  rw [List.map_filterMap]
  congr 1
  funext r
  cases h : r.text? <;> simp [Finding.layer?, h]

/-- A step of a call changes the store at most, where it puts what compiling the layers that were
read yields. -/
theorem advance_engine (w : Workshop σ) : w.advance.engine = w.engine ∨
    ∃ name recorded existing found emission, w.stage = .reading name recorded existing found [] ∧
      found.filterMap (·.text?) ≠ [] ∧
      w.engine.compiler.compileLayers (found.filterMap (·.text?)) = .ok emission ∧
      w.advance.engine = w.engine.keep name
        ⟨w.engine.resolve name, emission.code, recorded, existing, emission.diagnostics⟩ := by
  obtain ⟨e, clock, stage⟩ := w
  cases stage with
  | idle => exact .inl rfl
  | answered answer => exact .inl rfl
  | called name =>
    refine .inl ?_
    unfold advance
    simp only
    split <;> rfl
  | present name =>
    refine .inl ?_
    unfold advance
    simp only
    split <;> rfl
  | missed name => exact .inl rfl
  | timed name started => exact .inl rfl
  | listed name started existing => exact .inl rfl
  | reading name recorded existing found rest =>
    cases rest with
    | cons path rest =>
      refine .inl ?_
      unfold advance
      simp only
      split <;> rfl
    | nil =>
      by_cases hnone : found.filterMap Finding.layer? = []
      · refine .inl ?_
        unfold advance
        simp only [hnone]
        rfl
      · have htexts : found.filterMap (·.text?) ≠ [] := by
          rw [← map_text_layers]
          simpa using hnone
        unfold advance
        cases hcompile : e.compiler.compileLayers (found.filterMap (·.text?)) with
        | error err =>
          rw [← map_text_layers] at hcompile
          refine .inl ?_
          simp only [Engine.conclude_of_error hnone hcompile]
        | ok emission =>
          refine .inr ⟨name, recorded, existing, found, emission, rfl, htexts, hcompile, ?_⟩
          rw [← map_text_layers] at hcompile
          simp only [Engine.conclude_of_ok hnone hcompile]

theorem advance_clock (w : Workshop σ) : w.advance.clock = w.clock := by
  unfold advance
  split
  any_goals rfl
  all_goals split <;> rfl

end Workshop

end LayeredTags
