import LayeredTags.CoreTags
import LayeredTags.Proofs.Engine.Outcome
import LayeredTags.Proofs.Source.Memory

/-!
# The cache of an engine does not show

An engine over sources in memory answers as if it had no cache, as long as whatever is written to
the sources is stamped behind the times that its artifacts record.

* `Session`, `Session.Action`: an engine with the artifacts it has produced, and what is done with
  it.
* `Session.Vouched`: every stored artifact is what compiling yields for the sources that it was
  compiled from, and those that have not been stamped since still have their texts.
* `Session.outcome_run`: after any actions the answer is that of an engine with an empty cache.

Proof idea. A usable artifact has the same existing candidates as now, and none is stamped behind
its time; so all of them have the texts that it was compiled from. The registry of an engine changes
only together with its cache.
-/

namespace LayeredTags

/-- An engine and the artifacts that it has produced so far. -/
structure Session where
  engine : Engine MemoryStore
  produced : List Artifact

namespace Engine

def sources {σ : Type} (e : Engine σ) : MemorySources :=
  match e.resolver.storehouse with
  | .memory sources => sources
  | .disk => .empty

/-- The engine with an empty cache instead of its own. -/
def forgetful (e : Engine MemoryStore) : Engine MemoryStore :=
  { e with cache := .new .empty }

theorem cached?_forgetful (e : Engine MemoryStore) (name : String) :
    e.forgetful.cached? name = none := rfl

end Engine

namespace Session

/-- What is done with an engine over sources in memory. -/
inductive Action where
  | add (path : Path) (text : String) (modified : Instant)
  | touch (path : Path) (modified : Instant)
  | remove (path : Path)
  | register (definition : TagDefinition)
  | clear
  | compile (now : Instant) (name : String)

def start (settings : ThemeSettings) (sources : MemorySources) (compiler : Compiler)
    (strictRender : Bool) : Session :=
  ⟨⟨⟨settings, .memory sources⟩, compiler, .new .empty, strictRender⟩, []⟩

def step (s : Session) : Action → Session
  | .add path text modified =>
    { s with engine := s.engine.changeSources (·.add path text modified) }
  | .touch path modified =>
    { s with engine := s.engine.changeSources (·.touch path modified) }
  | .remove path => { s with engine := s.engine.changeSources (·.remove path) }
  | .register definition => { s with engine := s.engine.register definition }
  | .clear => { s with engine := s.engine.clearCache.2 }
  | .compile now name =>
    let r := s.engine.compileArtifact now name
    match r.1 with
    | .ok (a, _) => ⟨r.2, a :: s.produced⟩
    | .error _ => ⟨r.2, s.produced⟩

def run (s : Session) (actions : List Action) : Session :=
  actions.foldl step s

/-- The modification time that an action stamps on a source; nothing is stamped by touching a
source that does not exist. -/
def stamps (s : Session) : Action → Option Instant
  | .add _ _ modified => some modified
  | .touch path modified => (s.engine.sources.get? path).map fun _ => modified
  | .remove _ | .register _ | .clear | .compile _ _ => none

/-- What an action stamps lies behind the time that any artifact produced so far records. -/
def Allows (s : Session) (action : Action) : Prop :=
  ∀ t ∈ s.stamps action, ∀ a ∈ s.produced, a.recorded < t

instance (s : Session) (action : Action) : Decidable (s.Allows action) :=
  inferInstanceAs (Decidable (∀ t ∈ s.stamps action, ∀ a ∈ s.produced, a.recorded < t))

/-- Every action is allowed when its turn comes. -/
def AllowsAll (s : Session) : List Action → Prop
  | [] => True
  | action :: rest => s.Allows action ∧ (s.step action).AllowsAll rest

instance decidableAllowsAll (s : Session) :
    (actions : List Action) → Decidable (s.AllowsAll actions)
  | [] => isTrue trivial
  | action :: rest =>
    have := decidableAllowsAll (s.step action) rest
    inferInstanceAs (Decidable (s.Allows action ∧ (s.step action).AllowsAll rest))

/-! ## Artifacts that the sources bear out -/

/-- An artifact is what compiling yields for some layers, and every source of theirs that is not
stamped behind the time recorded still has its text. -/
structure Backed (compiler : Compiler) (sources : MemorySources) (a : Artifact)
    (layers : List LayerSource) (emission : Emission) : Prop where
  existing : Path.SameList a.existing (layers.map (·.path))
  compiled : compiler.compileLayers (layers.map (·.text)) = .ok emission
  code : a.code = emission.code
  diagnostics : a.diagnostics = emission.diagnostics
  unchanged : ∀ layer ∈ layers, ∀ s, sources.get? layer.path = some s →
    s.modified ≤ a.recorded → s.text = layer.text

namespace Backed

variable {compiler : Compiler} {sources : MemorySources} {a : Artifact}
  {layers : List LayerSource} {emission : Emission} {path : Path} {text : String}
  {modified : Instant}

theorem of_change {changed : MemorySources} (h : Backed compiler sources a layers emission)
    (hchange : ∀ p s, changed.get? p = some s → s.modified ≤ a.recorded →
      sources.get? p = some s) : Backed compiler changed a layers emission :=
  { h with
    unchanged := fun layer hlayer s hs hle =>
      h.unchanged layer hlayer s (hchange layer.path s hs hle) hle }

theorem add (h : Backed compiler sources a layers emission) (hlater : a.recorded < modified) :
    Backed compiler (sources.add path text modified) a layers emission := by
  refine h.of_change fun p s hs hle => ?_
  rw [MemorySources.get?_add] at hs
  split at hs
  · obtain rfl := Option.some.inj hs
    exact absurd hle (Instant.not_le_of_lt hlater)
  · exact hs

theorem touch (h : Backed compiler sources a layers emission)
    (hlater : (sources.get? path).isSome → a.recorded < modified) :
    Backed compiler (sources.touch path modified) a layers emission := by
  refine h.of_change fun p s hs hle => ?_
  rw [MemorySources.get?_touch] at hs
  split at hs
  · rename_i hsame
    obtain ⟨found, hfound, rfl⟩ := Option.map_eq_some_iff.mp hs
    rw [← MemorySources.get?_congr hsame] at hfound
    exact absurd hle (Instant.not_le_of_lt (hlater (by rw [hfound]; rfl)))
  · exact hs

theorem remove (h : Backed compiler sources a layers emission) :
    Backed compiler (sources.remove path) a layers emission := by
  refine h.of_change fun p s hs _ => ?_
  rw [MemorySources.get?_remove] at hs
  split at hs
  · cases hs
  · exact hs

theorem texts_eq {layers others : List LayerSource}
    (hpaths : Path.SameList (layers.map (·.path)) (others.map (·.path)))
    (htext : ∀ l ∈ layers, ∀ o ∈ others, l.path.Same o.path → l.text = o.text) :
    layers.map (·.text) = others.map (·.text) := by
  induction layers generalizing others with
  | nil =>
    cases others with
    | nil => rfl
    | cons o others => cases hpaths
  | cons l layers ih =>
    cases others with
    | nil => cases hpaths
    | cons o others =>
      obtain ⟨hpath, hpaths⟩ := List.cons.inj hpaths
      rw [List.map_cons, List.map_cons, htext l (.head _) o (.head _) hpath,
        ih hpaths fun l hl o ho => htext l (.tail _ hl) o (.tail _ ho)]

theorem compileLayers_eq {identity : List Path} (h : Backed compiler sources a layers emission)
    (husable : CacheManager.isUsable sources.view.modified? identity a = true) :
    compiler.compileLayers ((sources.layers identity).map (·.text)) = .ok emission := by
  obtain ⟨-, hexisting, hfresh⟩ := CacheManager.isUsable_iff.mp husable
  rw [← h.compiled]
  congr 1
  have hpaths : (sources.layers identity).map (·.path) =
      CacheManager.existing sources.view.modified? identity := by
    simp only [MemorySources.layers_map_path, CacheManager.existing, MemorySources.view,
      Option.isSome_map]
  refine texts_eq (hpaths ▸ hexisting.symm.trans h.existing) ?_
  intro l hl o ho hsame
  obtain ⟨hpath, s, hs, htext⟩ := MemorySources.mem_layers.mp hl
  have hle : s.modified ≤ a.recorded := hfresh l.path hpath s.modified (by
    simp only [MemorySources.view, hs, Option.map_some])
  rw [← htext]
  exact h.unchanged o ho s (MemorySources.get?_congr hsame ▸ hs) hle

end Backed

/-! ## What a session keeps -/

/-- Every stored artifact has been produced in the session and is backed by its sources. -/
structure Vouched (s : Session) (sources : MemorySources) : Prop where
  inMemory : s.engine.resolver.storehouse = .memory sources
  stored : ∀ key a, s.engine.cache.store.get? key = some a → a ∈ s.produced ∧
    ∃ layers emission, Backed s.engine.compiler sources a layers emission

variable {s : Session} {sources : MemorySources}

namespace Vouched

theorem sources_eq (h : s.Vouched sources) : s.engine.sources = sources := by
  rw [Engine.sources, h.inMemory]

theorem view_eq (h : s.Vouched sources) : s.engine.view = sources.view := by
  rw [Engine.view, Resolver.view, h.inMemory]

theorem changeSources (h : s.Vouched sources) (change : MemorySources → MemorySources)
    (hbacked : ∀ a ∈ s.produced, ∀ layers emission,
      Backed s.engine.compiler sources a layers emission →
        Backed s.engine.compiler (change sources) a layers emission) :
    Vouched { s with engine := s.engine.changeSources change } (change sources) := by
  have hengine : s.engine.changeSources change =
      { s.engine with
        resolver := { s.engine.resolver with storehouse := .memory (change sources) } } := by
    rw [Engine.changeSources, h.inMemory]
  rw [hengine]
  refine ⟨rfl, fun key a ha => ?_⟩
  obtain ⟨hproduced, layers, emission, hb⟩ := h.stored key a ha
  exact ⟨hproduced, layers, emission, hbacked a hproduced layers emission hb⟩

theorem of_empty (hmemory : s.engine.resolver.storehouse = .memory sources)
    (hempty : s.engine.cache.store = .empty) : s.Vouched sources := by
  refine ⟨hmemory, fun key a ha => ?_⟩
  rw [hempty, MemoryStore.get?_empty] at ha
  cases ha

theorem start (settings : ThemeSettings) (sources : MemorySources) (compiler : Compiler)
    (strictRender : Bool) : (start settings sources compiler strictRender).Vouched sources :=
  of_empty rfl rfl

theorem emission_eq (h : s.Vouched sources) {name : String}
    (hpresent : s.engine.isPresent name = true) :
    s.engine.emission name = s.engine.compiler.compileLayers
      ((sources.layers (s.engine.resolve name)).map (·.text)) := by
  rw [Engine.isPresent, h.view_eq] at hpresent
  rw [Engine.emission, h.view_eq, MemorySources.loadLayers_view hpresent]

theorem backed_artifact (h : s.Vouched sources) {now : Instant} {name : String}
    {emission : Emission} (hpresent : s.engine.isPresent name = true)
    (hok : s.engine.emission name = .ok emission) :
    Backed s.engine.compiler sources (s.engine.artifact now name emission)
      (sources.layers (s.engine.resolve name)) emission where
  existing := by
    simp only [Engine.artifact, h.view_eq, CacheManager.existing, MemorySources.layers_map_path,
      MemorySources.view, Option.isSome_map, Path.SameList.refl]
  compiled := h.emission_eq hpresent ▸ hok
  code := rfl
  diagnostics := rfl
  unchanged layer hlayer source hsource _ := by
    obtain ⟨-, found, hfound, htext⟩ := MemorySources.mem_layers.mp hlayer
    obtain rfl := Option.some.inj (hfound.symm.trans hsource)
    exact htext

theorem compile (h : s.Vouched sources) (now : Instant) (name : String) :
    (s.step (.compile now name)).Vouched sources := by
  rw [step]
  cases hpresent : s.engine.isPresent name with
  | false =>
    rw [Engine.compileArtifact_of_absent hpresent]
    exact h
  | true =>
    cases hcached : s.engine.cached? name with
    | some a =>
      rw [Engine.compileArtifact_of_cached hpresent hcached]
      refine ⟨h.inMemory, fun key b hb => ?_⟩
      obtain ⟨hproduced, hbacked⟩ := h.stored key b hb
      exact ⟨.tail _ hproduced, hbacked⟩
    | none =>
      cases hemission : s.engine.emission name with
      | error err =>
        rw [Engine.compileArtifact_of_error hpresent hcached hemission]
        exact h
      | ok emission =>
        rw [Engine.compileArtifact_of_ok hpresent hcached hemission]
        refine ⟨h.inMemory, fun key b hb => ?_⟩
        have hload : (s.engine.cache.store.insert
            (s.engine.cache.keyOf (s.engine.resolve name))
            (s.engine.artifact now name emission)).get? key = some b := hb
        rw [MemoryStore.get?_insert] at hload
        split at hload
        · obtain rfl := Option.some.inj hload
          exact ⟨.head _, _, _, h.backed_artifact hpresent hemission⟩
        · obtain ⟨hproduced, hbacked⟩ := h.stored key b hload
          exact ⟨.tail _ hproduced, hbacked⟩

theorem step (h : s.Vouched sources) {action : Action} (hallowed : s.Allows action) :
    ∃ changed, (s.step action).Vouched changed := by
  cases action with
  | add path text modified =>
    exact ⟨_, h.changeSources _ fun a ha _ _ hb => hb.add (hallowed modified rfl a ha)⟩
  | touch path modified =>
    refine ⟨_, h.changeSources _ fun a ha _ _ hb => hb.touch fun hfound => ?_⟩
    refine hallowed modified ?_ a ha
    obtain ⟨source, hsource⟩ := Option.isSome_iff_exists.mp hfound
    rw [Option.mem_def, stamps, h.sources_eq, hsource, Option.map_some]
  | remove path => exact ⟨_, h.changeSources _ fun _ _ _ _ hb => hb.remove⟩
  | register definition =>
    exact ⟨sources, of_empty (s := s.step (.register definition)) h.inMemory rfl⟩
  | clear => exact ⟨sources, of_empty (s := s.step .clear) h.inMemory rfl⟩
  | compile now name => exact ⟨sources, h.compile now name⟩

theorem run (h : s.Vouched sources) {actions : List Action} (hallowed : s.AllowsAll actions) :
    ∃ changed, (s.run actions).Vouched changed := by
  induction actions generalizing s sources with
  | nil => exact ⟨sources, h⟩
  | cons action rest ih =>
    obtain ⟨changed, hstep⟩ := h.step hallowed.1
    exact ih hstep hallowed.2

theorem outcome_eq (h : s.Vouched sources) (now : Instant) (name : String) :
    s.engine.outcome now name = s.engine.fromSources name := by
  cases hcached : s.engine.cached? name with
  | none => exact Engine.outcome_of_cached?_eq_none hcached
  | some a =>
    obtain ⟨hload, husable⟩ := CacheManager.lookup_eq_some_iff.mp hcached
    obtain ⟨-, layers, emission, hbacked⟩ := h.stored _ a (Except.ok.inj hload)
    rw [Engine.outcome, Engine.fromSources]
    cases hpresent : s.engine.isPresent name with
    | false =>
      rw [Engine.compileArtifact_of_absent hpresent]
      rfl
    | true =>
      rw [Engine.compileArtifact_of_cached hpresent hcached, h.emission_eq hpresent,
        hbacked.compileLayers_eq (h.view_eq ▸ husable)]
      show Except.ok (a.code, a.diagnostics) = .ok (emission.code, emission.diagnostics)
      rw [hbacked.code, hbacked.diagnostics]

end Vouched

/-- After any actions that stamp what they write behind the artifacts produced before, a template
has the code and the mistakes, or the error, that it would have without the cache. -/
theorem outcome_run (settings : ThemeSettings) (sources : MemorySources) (compiler : Compiler)
    (strictRender : Bool) (actions : List Action)
    (hallowed : (start settings sources compiler strictRender).AllowsAll actions)
    (now later : Instant) (name : String) :
    ((start settings sources compiler strictRender).run actions).engine.outcome now name =
      ((start settings sources compiler strictRender).run actions).engine.forgetful.outcome
        later name := by
  obtain ⟨changed, hvouched⟩ := (Vouched.start _ _ _ _).run hallowed
  rw [hvouched.outcome_eq]
  exact (Engine.outcome_of_cached?_eq_none (Engine.cached?_forgetful _ name)).symm

/-- A less specific layer, a more specific one behind it, and a change of the first. -/
def layersInTurn : List Action :=
  [.add ⟨"base/page.tpl"⟩ "Hi <tag:If var=\"x\">you</tag:If>" ⟨10⟩, .compile ⟨20⟩ "page",
    .add ⟨"child/page.tpl"⟩ "Ho" ⟨30⟩, .compile ⟨40⟩ "page", .touch ⟨"base/page.tpl"⟩ ⟨50⟩,
    .compile ⟨60⟩ "page", .remove ⟨"child/page.tpl"⟩, .compile ⟨70⟩ "page"]

def twoThemes : Session :=
  start ⟨[⟨"child"⟩, ⟨"base"⟩], "tpl"⟩ .empty ⟨CoreTags.registry, false⟩ false

theorem outcome_run_layersInTurn : twoThemes.AllowsAll layersInTurn ∧
    (twoThemes.run layersInTurn).engine.outcome ⟨80⟩ "page" =
      (twoThemes.run layersInTurn).engine.forgetful.outcome ⟨90⟩ "page" := by
  have hallowed : twoThemes.AllowsAll layersInTurn := by decide +kernel
  exact ⟨hallowed, outcome_run _ _ _ _ _ hallowed _ _ _⟩

end Session

end LayeredTags
