import LayeredTags.Proofs.Engine.Strict
import LayeredTags.Proofs.Store.Directory
import Mathlib

/-!
# Engines that share a cache directory

Engines that are opened over the same theme directories and the same cache directory hand out what
they find in the cache. A strict engine does so even if a permissive one has put it there.

* `Site`: what the engines share.
* `Site.Event`, `Site.run`: edits of the disk and calls of engines, one after the other.
* `Site.build_eq_engine`, `Site.engine_step`: the engines that are set up for a site are these, and
  one that stays open is what a newly opened one is.
* `Site.Compiled`, `Site.Foreign`: what engines have compiled in a history, and what others have
  brought to the disk.
* `Site.holds_run`: where the files of a disk come from.
* `Site.strict_run`: what a strict engine answers after any history.

Proof idea. A file of the disk has been there at first, was brought by an edit, is empty, or is the
text of an artifact that some engine has compiled. The text of an artifact reads as no other
artifact, and strict engines compile none with mistakes.
-/

namespace LayeredTags

/-- Theme directories, a cache directory and a registry. -/
structure Site where
  themes : ThemeSettings
  cacheDirectory : Path
  registry : Registry

namespace Site

/-- What happens on the disk of a site. -/
inductive Event where
  /-- others leave the disk like this -/
  | edit (disk : FileSystem)
  /-- an engine is opened and asked for a template -/
  | compile (strict : Bool) (now : Instant) (name : String)

def engine (s : Site) (strict : Bool) (disk : FileSystem) : Engine Storage :=
  ⟨⟨s.themes, .disk⟩, ⟨s.registry, strict⟩, .new ⟨.directory s.cacheDirectory, disk⟩, false⟩

def step (s : Site) (disk : FileSystem) : Event → FileSystem
  | .edit edited => edited
  | .compile strict now name =>
    ((s.engine strict disk).compileArtifact now name).2.cache.store.disk

def run (s : Site) (disk : FileSystem) (history : List Event) : FileSystem :=
  history.foldl s.step disk

/-- An engine has compiled the artifact in the course of a history. -/
def Compiled (s : Site) (disk : FileSystem) (history : List Event) (strict : Bool)
    (a : Artifact) : Prop :=
  ∃ before now name after report, history = before ++ .compile strict now name :: after ∧
    ((s.engine strict (s.run disk before)).compileArtifact now name).1 = .ok (a, some report)

/-- The disk held the content at first, or an edit has brought it. -/
def Foreign (s : Site) (disk : FileSystem) (history : List Event) (content : Content) : Prop :=
  disk.Holds content ∨ ∃ before edited after, history = before ++ .edit edited :: after ∧
    edited.Holds content ∧ ¬ (s.run disk before).Holds content

variable {s : Site} {disk : FileSystem} {history : List Event} {strict : Bool} {now : Instant}
  {name : String} {a : Artifact} {content : Content}

/-! ## Engines of a site -/

/-- An engine that stays open is what a newly opened one is: it keeps nothing but the disk. -/
theorem engine_step : ((s.engine strict disk).compileArtifact now name).2 =
    s.engine strict (s.step disk (.compile strict now name)) := by
  rw [step]
  cases hpresent : (s.engine strict disk).isPresent name with
  | false =>
    rw [Engine.compileArtifact_of_absent hpresent]
    rfl
  | true =>
    cases hcached : (s.engine strict disk).cached? name with
    | some b =>
      rw [Engine.compileArtifact_of_cached hpresent hcached]
      rfl
    | none =>
      cases hemission : (s.engine strict disk).emission name with
      | error err =>
        rw [Engine.compileArtifact_of_error hpresent hcached hemission]
        rfl
      | ok emission =>
        rw [Engine.compileArtifact_of_ok hpresent hcached hemission]
        rfl

theorem build_eq_engine {setup : EngineSetup} {path : Path} (hresolver : setup.resolver = none)
    (hdirectories : setup.directories ≠ []) (hshelf : setup.shelf = none)
    (hcache : setup.cacheDirectory = some path) :
    setup.build disk = .ok
      { engine ⟨⟨setup.directories, setup.extension.getD defaultExtension⟩, path, setup.registry⟩
          setup.strict disk with strictRender := setup.strictRender } := by
  rw [EngineSetup.build, EngineSetup.resolver?, EngineSetup.chosenShelf, hresolver, hshelf, hcache]
  simp only
  rw [if_neg hdirectories]
  rfl

/-! ## Where files come from -/

theorem run_concat (event : Event) :
    s.run disk (history ++ [event]) = s.step (s.run disk history) event := by
  rw [run, List.foldl_append, ← run]
  rfl

theorem Compiled.concat (h : s.Compiled disk history strict a) (event : Event) :
    s.Compiled disk (history ++ [event]) strict a := by
  obtain ⟨before, now, name, after, report, rfl, hok⟩ := h
  exact ⟨before, now, name, after ++ [event], report, by simp, hok⟩

theorem Foreign.concat (h : s.Foreign disk history content) (event : Event) :
    s.Foreign disk (history ++ [event]) content := by
  rcases h with h | ⟨before, edited, after, rfl, hedited, hnew⟩
  · exact .inl h
  · exact .inr ⟨before, edited, after ++ [event], by simp, hedited, hnew⟩

/-- What the disk holds after a call was there before, or it is the text of the artifact that the
call has compiled, unless it is empty. -/
theorem holds_step_compile (h : (s.step disk (.compile strict now name)).Holds content) :
    disk.Holds content ∨ content = [] ∨ ∃ a report text,
      ((s.engine strict disk).compileArtifact now name).1 = .ok (a, some report) ∧
        a.write = .ok text ∧ content = .ofString text := by
  rw [step] at h
  cases hpresent : (s.engine strict disk).isPresent name with
  | false =>
    rw [Engine.compileArtifact_of_absent hpresent] at h
    exact .inl h
  | true =>
    cases hcached : (s.engine strict disk).cached? name with
    | some b =>
      rw [Engine.compileArtifact_of_cached hpresent hcached] at h
      exact .inl h
    | none =>
      cases hemission : (s.engine strict disk).emission name with
      | error err =>
        rw [Engine.compileArtifact_of_error hpresent hcached hemission] at h
        exact .inl h
      | ok emission =>
        rw [Engine.compileArtifact_of_ok hpresent hcached hemission] at h ⊢
        obtain ⟨l, hheld⟩ := h
        rcases DirectoryStore.holdsAt_save hheld with hold | hempty | ⟨text, hwrite, htext⟩
        · exact .inl ⟨l, hold⟩
        · exact .inr (.inl hempty)
        · exact .inr (.inr ⟨_, _, text, rfl, hwrite, htext⟩)

theorem holds_run (h : (s.run disk history).Holds content) :
    s.Foreign disk history content ∨ content = [] ∨ ∃ strict a text,
      s.Compiled disk history strict a ∧ a.write = .ok text ∧ content = .ofString text := by
  induction history using List.reverseRecOn generalizing content with
  | nil => exact .inl (.inl h)
  | append_singleton before event ih =>
    have hold : (s.run disk before).Holds content →
        s.Foreign disk (before ++ [event]) content ∨ content = [] ∨ ∃ strict a text,
          s.Compiled disk (before ++ [event]) strict a ∧ a.write = .ok text ∧
            content = .ofString text := by
      intro hheld
      rcases ih hheld with hforeign | hempty | ⟨strict, a, text, hcompiled, hwrite⟩
      · exact .inl (hforeign.concat event)
      · exact .inr (.inl hempty)
      · exact .inr (.inr ⟨strict, a, text, hcompiled.concat event, hwrite⟩)
    rw [run_concat] at h
    cases event with
    | edit edited =>
      by_cases hheld : (s.run disk before).Holds content
      · exact hold hheld
      · exact .inl (.inr ⟨before, edited, [], rfl, h, hheld⟩)
    | compile strict now name =>
      rcases holds_step_compile h with hheld | hempty | ⟨a, report, text, hok, hwrite, htext⟩
      · exact hold hheld
      · exact .inr (.inl hempty)
      · exact .inr (.inr
          ⟨strict, a, text, ⟨before, now, name, [], report, rfl, hok⟩, hwrite, htext⟩)

theorem load_keep (hsaved : ((DirectoryStore.mk s.cacheDirectory disk).save
      (cacheKey (s.themes.candidates name)) a).1 = .ok ())
    (hclock : a.recorded.seconds < Instant.secondsBound) (other : Bool) :
    ArtifactStore.load
      (s.engine other ((s.engine strict disk).keep name a).cache.store.disk).cache.store
      (cacheKey (s.themes.candidates name)) = .ok (some a) := by
  have hload := DirectoryStore.load_save hsaved hclock
  rw [← DirectoryStore.mk_save] at hload
  exact hload

/-! ## What a strict engine answers -/

theorem Compiled.diagnostics_eq_nil (h : s.Compiled disk history true a) : a.diagnostics = [] := by
  obtain ⟨before, now, name, after, report, -, hok⟩ := h
  refine Classical.byContradiction fun hmistakes => ?_
  obtain ⟨hpresent, hcached, -⟩ := (Engine.strict_ok_iff rfl).mp ⟨⟨_, hok⟩, hmistakes⟩
  rw [Engine.compileArtifact_of_cached hpresent hcached] at hok
  cases hok

theorem origin_of_cached? {strict : Bool}
    (h : (s.engine strict (s.run disk history)).cached? name = some a)
    (hmistakes : a.diagnostics ≠ []) :
    s.Compiled disk history false a ∨
      ∃ content, s.Foreign disk history content ∧ Artifact.read content = .ok a := by
  obtain ⟨hload, -⟩ := CacheManager.lookup_eq_some_iff.mp h
  obtain ⟨content, hheld, hread⟩ := DirectoryStore.holdsAt_of_load hload
  rcases holds_run ⟨_, hheld⟩ with hforeign | rfl | ⟨compiler, b, text, hcompiled, hwrite, rfl⟩
  · exact .inr ⟨content, hforeign, hread⟩
  · rw [Artifact.read_nil] at hread
    cases hread
  · obtain rfl := Artifact.eq_of_read_write hwrite hread
    cases compiler with
    | false => exact .inl hcompiled
    | true => exact absurd hcompiled.diagnostics_eq_nil hmistakes

/-- **Strict engines after any history.** A strict engine hands out an artifact with mistakes if and
only if that is usable in the cache, where a permissive engine or somebody else has put it; and it
rejects a template for its mistakes if and only if it has some and nothing is usable in the
cache. -/
theorem strict_run (s : Site) (disk : FileSystem) (history : List Event) (now : Instant)
    (name : String) :
    (∀ a, (∃ report, ((s.engine true (s.run disk history)).compileArtifact now name).1 =
          .ok (a, report)) ∧ a.diagnostics ≠ [] ↔
        (s.engine true (s.run disk history)).isPresent name = true ∧
          (s.engine true (s.run disk history)).cached? name = some a ∧ a.diagnostics ≠ [] ∧
            (s.Compiled disk history false a ∨
              ∃ content, s.Foreign disk history content ∧ Artifact.read content = .ok a)) ∧
      ∀ diagnostics, ((s.engine true (s.run disk history)).compileArtifact now name).1 =
          .error (.template (.strict diagnostics)) ↔
        (s.engine true (s.run disk history)).cached? name = none ∧ diagnostics ≠ [] ∧
          ∃ code, (s.engine false (s.run disk history)).fromSources name =
            .ok (code, diagnostics) := by
  refine ⟨fun a => ?_, fun _ => Engine.strict_error_iff rfl⟩
  rw [Engine.strict_ok_iff rfl]
  constructor
  · rintro ⟨hpresent, hcached, hmistakes⟩
    exact ⟨hpresent, hcached, hmistakes, origin_of_cached? hcached hmistakes⟩
  · rintro ⟨hpresent, hcached, hmistakes, -⟩
    exact ⟨hpresent, hcached, hmistakes⟩

def shop : Site := ⟨⟨[⟨"child"⟩, ⟨"base"⟩], "tpl"⟩, ⟨"cache"⟩, CoreTags.registry⟩

def withMistake : FileSystem :=
  FileSystem.empty.plant ⟨"base/page.tpl"⟩ (.file (.ofString "P<tag:Q>x</tag:Q>") ⟨10⟩)

def mistaken : Artifact :=
  ⟨[⟨"child/page.tpl"⟩, ⟨"base/page.tpl"⟩], "Px", ⟨20⟩, [⟨"base/page.tpl"⟩],
    [⟨.unknownBlockTag, "Q"⟩]⟩

theorem loadLayers_withMistake (strict : Bool) :
    (shop.engine strict withMistake).view.loadLayers "page"
      ((shop.engine strict withMistake).resolve "page") =
        .ok [⟨⟨"base/page.tpl"⟩, "P<tag:Q>x</tag:Q>"⟩] := by
  have hlayers : ∀ strict, ((shop.engine strict withMistake).view.loadLayers "page"
      ((shop.engine strict withMistake).resolve "page")).toOption =
        some [⟨⟨"base/page.tpl"⟩, "P<tag:Q>x</tag:Q>"⟩] := by decide +kernel
  exact eq_ok_of_toOption (hlayers strict)

theorem emission_withMistake (strict : Bool) : (shop.engine strict withMistake).emission "page" =
    if strict then .error (.strict [⟨.unknownBlockTag, "Q"⟩])
    else .ok ⟨"Px", [⟨.unknownBlockTag, "Q"⟩], []⟩ := by
  have hcompile : Compiler.permissive CoreTags.registry ["P<tag:Q>x</tag:Q>"] =
      ⟨"Px", [⟨.unknownBlockTag, "Q"⟩], []⟩ := by cbv
  rw [Engine.emission, loadLayers_withMistake]
  cases strict <;> simp [Compiler.compileLayers, engine, shop, hcompile]

/-- A strict engine rejects the template; behind a permissive one it hands it out. -/
theorem strict_run_bypassed :
    (shop.engine true withMistake).outcome ⟨30⟩ "page" =
        .error (.template (.strict [⟨.unknownBlockTag, "Q"⟩])) ∧
      (shop.engine true (shop.run withMistake [.compile false ⟨20⟩ "page"])).outcome ⟨30⟩ "page" =
        .ok ("Px", [⟨.unknownBlockTag, "Q"⟩]) := by
  have hpresent : ∀ strict, (shop.engine strict withMistake).isPresent "page" = true := by
    decide +kernel
  have hcached : ∀ strict, (shop.engine strict withMistake).cached? "page" = none := by
    decide +kernel
  constructor
  · rw [Engine.outcome, Engine.compileArtifact_of_error (hpresent true) (hcached true)
      (emission_withMistake true)]
    rfl
  · have hartifact : (shop.engine false withMistake).artifact ⟨20⟩ "page"
        ⟨"Px", [⟨.unknownBlockTag, "Q"⟩], []⟩ = mistaken := by decide +kernel
    have hrun : shop.run withMistake [.compile false ⟨20⟩ "page"] =
        ((shop.engine false withMistake).keep "page" mistaken).cache.store.disk := by
      rw [run, List.foldl_cons, List.foldl_nil, step, Engine.compileArtifact_of_ok (hpresent false)
        (hcached false) (emission_withMistake false), hartifact]
    have hsaved : ((DirectoryStore.mk shop.cacheDirectory withMistake).save
        (cacheKey (shop.themes.candidates "page")) mistaken).1 = .ok () :=
      eq_ok_of_toOption (by decide +kernel)
    rw [hrun, Engine.outcome, Engine.compileArtifact_of_cached (a := mistaken)]
    · rfl
    · decide +kernel
    · refine CacheManager.lookup_eq_some_iff.mpr ⟨?_, by decide +kernel⟩
      exact load_keep (s := shop) hsaved (by decide) true

end Site

end LayeredTags
