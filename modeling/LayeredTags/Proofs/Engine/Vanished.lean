import LayeredTags.Proofs.Engine.OnDisk
import LayeredTags.Proofs.Engine.Race
import Mathlib

/-!
# Sources that vanish behind a compilation

An artifact may have been compiled from a layer that was there for a moment only.

* `Workshop.Vanished`: a candidate was missing when the candidates were listed, was there when it
  was read, and is missing again.
* `Workshop.outcome_amid_edits`: a template has what compiling its sources yields, unless a layer of
  the artifact has vanished.
* `Workshop.outcome_amid_edits_of_lasting`: it has, if all candidates last that are ever there.
* `Workshop.Timely.allowsAll`: files of a disk that others write and delete.
* `Workshop.not_forall_code_of_sources`: a layer that is gone and still shows.

Proof idea. A usable artifact is not behind any existing candidate, so these have the texts that
were read. That a candidate is missing which was read shows in nothing but the list of existing
candidates, and that was made before it was read.
-/

namespace LayeredTags

namespace Workshop

variable {σ : Type} [ArtifactStore σ] [HasDisk σ]

/-- At some moment there was no source at a path, at a moment behind it there was one with this text
and was read, and now there is none again. -/
def Vanished (w : Workshop σ) (history : List (Event σ)) (path : Path) (text : String) : Prop :=
  ∃ listing later, listing ++ later <+: history ∧
    (w.run listing).view.modified? path = none ∧
    (w.run (listing ++ later)).view.read path = .ok (some text) ∧
    (w.run history).view.modified? path = none

/-- The texts that an artifact was compiled from are those that can be read now, or have
vanished. -/
def Found (w : Workshop σ) (history : List (Event σ)) (path : Path) (text? : Option String) :
    Prop :=
  (w.run history).view.read path = .ok text? ∨
    ∃ text, text? = some text ∧ w.Vanished history path text

variable [HoldingStore σ] {w : Workshop σ} {history : List (Event σ)} {names : List String}
  {name : String} {found : List Finding} {a : Artifact} {emission : Emission} {r : Finding}

/-- If a candidate is missing now, and the existing ones are those that were listed, then it was
missing when they were listed. -/
theorem Borne.modified?_listing {compiled : String} {listing : List (Event σ)} {q : Path}
    (h : w.Borne names history a compiled found emission) (hr : r ∈ found)
    (hthen : w.Inv names listing) (hnow : w.Inv names history)
    (hlisted : a.existing =
      CacheManager.existing (w.run listing).view.modified? (w.settings.candidates compiled))
    (hname : name ∈ names)
    (hexisting : Path.SameList a.existing
      (CacheManager.existing (w.run history).view.modified? (w.settings.candidates name)))
    (hq : q ∈ w.candidatesOf names) (hsame : q.Same r.path)
    (hmissing : (w.run history).view.modified? q = none) :
    (w.run listing).view.modified? q = none := by
  cases hmodified : (w.run listing).view.modified? q with
  | none => rfl
  | some t =>
    exfalso
    have hfinding := h.sound.candidate r hr
    have hmem : r.path ∈ a.existing := by
      rw [hlisted]
      refine List.mem_filter.mpr ⟨h.paths ▸ List.mem_map_of_mem hr, ?_⟩
      rw [← (hthen.same hq hfinding hsame).2, hmodified]
      rfl
    have hcomponents : r.path.components ∈ a.existing.map Path.components :=
      List.mem_map_of_mem hmem
    rw [hexisting] at hcomponents
    obtain ⟨p, hp, hcomponents⟩ := List.mem_map.mp hcomponents
    obtain ⟨hp, hthere⟩ := List.mem_filter.mp hp
    have hpq : p.Same q := hcomponents.trans hsame.symm
    rw [(hnow.same (ThemeSettings.candidates_subset hname hp) hq hpq).2, hmissing] at hthere
    cases hthere

theorem Borne.forall₂_found {compiled : String}
    (h : w.Borne names history a compiled found emission) (hname : name ∈ names)
    (hinv : ∀ before, before <+: history → w.Inv names before)
    (hcached : (w.run history).engine.cached? name = some a) :
    List.Forall₂ (w.Found history) (w.settings.candidates name) (found.map (·.text?)) := by
  have hnow := hinv history (List.prefix_refl _)
  obtain ⟨-, husable⟩ := CacheManager.lookup_eq_some_iff.mp hcached
  obtain ⟨hidentity, hexisting, hfresh⟩ := CacheManager.isUsable_iff.mp husable
  rw [hnow.resolve_eq] at hidentity hexisting hfresh
  have hpaths : (w.settings.candidates name).map Path.components =
      found.map fun r => r.path.components := by
    rw [h.identity, ← h.paths] at hidentity
    exact Eq.trans (Eq.symm hidentity) List.map_map
  rw [List.forall₂_map_right_iff]
  refine forall₂_of_map_eq hpaths fun q hq r hr hsame => ?_
  have hcandidate : q ∈ w.candidatesOf names := ThemeSettings.candidates_subset hname hq
  have hfinding := h.sound.candidate r hr
  cases hmodified : (w.run history).view.modified? q with
  | some t =>
    -- it is not stamped behind the recorded time, so what was found still holds
    refine .inl ?_
    obtain ⟨hread, hthere⟩ := hnow.same hcandidate hfinding hsame
    rw [hread]
    exact h.sound.stands r hr t (hthere ▸ hmodified) (hfresh q hq t hmodified)
  | none =>
    cases htext : r.text? with
    | none =>
      have hreads := hnow.orderly.reads
      rw [candidatesOf_congr hnow.settings] at hreads
      exact .inl ((hreads q hcandidate).mpr hmodified)
    | some text =>
      -- it was there when it was read; the lists of existing candidates agree, so it was missing
      -- when the first one was made, as it is now
      obtain ⟨listing, later, hlater, hlisted, hread⟩ := h.sound.taken r hr
      have hthen := hinv listing ((List.prefix_append ..).trans hlater)
      refine .inr ⟨text, rfl, listing, later, hlater, ?_, ?_, hmodified⟩
      · exact h.modified?_listing hr hthen hnow hlisted hname hexisting hcandidate hsame hmodified
      · rw [((hinv _ hlater).same hcandidate hfinding hsame).1, hread, htext]

theorem outcome_amid_edits_cases (hfresh : w.Fresh names) (hallowed : w.AllowsAll names history)
    (hname : name ∈ names) (now : Instant) :
    (w.run history).engine.outcome now name = (w.run history).engine.fromSources name ∨
      ∃ texts emission, List.Forall₂ (w.Found history) (w.settings.candidates name) texts ∧
        texts.reduceOption ≠ [] ∧
        w.engine.compiler.compileLayers texts.reduceOption = .ok emission ∧
        (w.run history).engine.isPresent name = true ∧
        (w.run history).engine.outcome now name = .ok (emission.code, emission.diagnostics) := by
  have hinv : ∀ before, before <+: history → w.Inv names before := by
    rintro before ⟨later, rfl⟩
    exact hfresh.inv_run (allowsAll_append.mp hallowed).1
  rcases (w.run history).engine.outcome_cases now name with
    hnow | ⟨a, hpresent, hcached, hanswer⟩
  · exact .inl hnow
  · obtain ⟨compiled, found, emission, hborne⟩ :=
      (hinv history (List.prefix_refl _)).held name hname a (Engine.holds_of_cached? hcached)
    have htexts : (found.map (·.text?)).reduceOption = found.filterMap (·.text?) := by
      rw [List.reduceOption, List.filterMap_map]
      rfl
    refine .inr ⟨_, emission, hborne.forall₂_found hname hinv hcached, ?_, ?_, hpresent, ?_⟩
    · exact htexts ▸ hborne.nonempty
    · exact htexts ▸ hborne.compiled
    · rw [hanswer, hborne.code, hborne.diagnostics]

theorem fromSources_of_found {texts : List (Option String)} (hinv : w.Inv names history)
    (hfound : List.Forall₂ (w.Found history) (w.settings.candidates name) texts)
    (hne : texts.reduceOption ≠ [])
    (hcompile : w.engine.compiler.compileLayers texts.reduceOption = .ok emission)
    (hpresent : (w.run history).engine.isPresent name = true)
    (hlasting : ∀ p text, (p, some text) ∈ (w.settings.candidates name).zip texts →
      ¬ w.Vanished history p text) :
    (w.run history).engine.fromSources name = .ok (emission.code, emission.diagnostics) := by
  obtain ⟨hlength, hfound⟩ := List.forall₂_iff_zip.mp hfound
  have hread : List.Forall₂ (fun p text? => (w.run history).view.read p = .ok text?)
      (w.settings.candidates name) texts := by
    refine List.forall₂_iff_zip.mpr ⟨hlength, fun hmem => ?_⟩
    rcases hfound hmem with hread | ⟨text, rfl, hvanished⟩
    · exact hread
    · exact absurd hvanished (hlasting _ text hmem)
  have hemission : (w.run history).engine.emission name = .ok emission := by
    refine Engine.emission_eq_ok_iff.mpr ⟨_, ?_, hne, hinv.compiler ▸ hcompile⟩
    rw [hinv.resolve_eq]
    exact SourceView.texts_eq_ok_iff.mpr ⟨texts, hread, rfl⟩
  rw [Engine.fromSources, if_pos hpresent, hemission]
  rfl

/-- **Races.** Let no call be at work and no artifact be stored of some templates whose candidates
are orderly, and let others keep them so and stamp what they write. After any history of calls for
these templates and of such edits, a template has what compiling its sources yields; or it has what
compiling other texts yields, each of which can be read now or has vanished, and some have
vanished. -/
theorem outcome_amid_edits (hfresh : w.Fresh names) (hallowed : w.AllowsAll names history)
    (hname : name ∈ names) (now : Instant) :
    (w.run history).engine.outcome now name = (w.run history).engine.fromSources name ∨
      ∃ texts emission, List.Forall₂ (w.Found history) (w.settings.candidates name) texts ∧
        (∃ p text, (p, some text) ∈ (w.settings.candidates name).zip texts ∧
          w.Vanished history p text) ∧
        w.engine.compiler.compileLayers texts.reduceOption = .ok emission ∧
        (w.run history).engine.outcome now name = .ok (emission.code, emission.diagnostics) := by
  rcases outcome_amid_edits_cases hfresh hallowed hname now with
    hnow | ⟨texts, emission, hfound, hne, hcompile, hpresent, hanswer⟩
  · exact .inl hnow
  · by_cases hvanished : ∃ p text, (p, some text) ∈ (w.settings.candidates name).zip texts ∧
        w.Vanished history p text
    · exact .inr ⟨texts, emission, hfound, hvanished, hcompile, hanswer⟩
    · refine .inl (hanswer.trans (Eq.symm ?_))
      exact fromSources_of_found (hfresh.inv_run hallowed) hfound hne hcompile hpresent
        fun p text hmem hgone => hvanished ⟨p, text, hmem, hgone⟩

/-- If all candidates last that are ever there, a template has what compiling its sources yields. -/
theorem outcome_amid_edits_of_lasting (hfresh : w.Fresh names)
    (hallowed : w.AllowsAll names history) (hname : name ∈ names)
    (hlasting : ∀ p ∈ w.settings.candidates name, ∀ before, before <+: history →
      (w.run before).view.modified? p ≠ none → (w.run history).view.modified? p ≠ none)
    (now : Instant) :
    (w.run history).engine.outcome now name = (w.run history).engine.fromSources name := by
  rcases outcome_amid_edits_cases hfresh hallowed hname now with
    hnow | ⟨texts, emission, hfound, hne, hcompile, hpresent, hanswer⟩
  · exact hnow
  · refine hanswer.trans (Eq.symm ?_)
    refine fromSources_of_found (hfresh.inv_run hallowed) hfound hne hcompile hpresent ?_
    rintro p text hmem ⟨listing, later, ⟨rest, rfl⟩, -, hread, hmissing⟩
    have hp := (List.of_mem_zip hmem).1
    have hthen := hfresh.inv_run (allowsAll_append.mp hallowed).1
    have hreads := hthen.orderly.reads
    rw [candidatesOf_congr hthen.settings] at hreads
    refine hlasting p hp _ (List.prefix_append ..) (fun hgone => ?_) hmissing
    rw [← hreads p (ThemeSettings.candidates_subset hname hp), hread] at hgone
    cases hgone

/-! ## Sources on a disk -/

open FileSystem (Replaces)

def Event.write (path : Path) (text : String) (time : Instant) : Event Storage :=
  .edit time fun e => e.changeDisk fun disk =>
    disk.put (disk.destination path) (.file (.ofString text) time)

def Event.delete (path : Path) (time : Instant) : Event Storage :=
  .edit time fun e => e.changeDisk fun disk => disk.erase (disk.destination path)

/-- Some templates are called, and others write and delete candidates of them. The clock never goes
back, and it moves on when something is written. -/
inductive Timely (t : ThemeSettings) (names : List String) : Instant → List (Event Storage) → Prop
  | nil (clock : Instant) : Timely t names clock []
  | write {clock time : Instant} {rest : List (Event Storage)} {path : Path} (text : String)
    (hpath : path ∈ t.candidatesOf names) (hlt : clock < time) (hrest : Timely t names time rest) :
    Timely t names clock (.write path text time :: rest)
  | delete {clock time : Instant} {rest : List (Event Storage)} {path : Path}
    (hpath : path ∈ t.candidatesOf names) (hle : clock ≤ time) (hrest : Timely t names time rest) :
    Timely t names clock (.delete path time :: rest)
  | call {clock : Instant} {rest : List (Event Storage)} {name : String} (hname : name ∈ names)
    (hrest : Timely t names clock rest) : Timely t names clock (.call name :: rest)
  | advance {clock : Instant} {rest : List (Event Storage)} (hrest : Timely t names clock rest) :
    Timely t names clock (.advance :: rest)

section disk

variable {w : Workshop Storage} {history : List (Event Storage)}

theorem orderly_of_onDisk (h : w.engine.OnDisk names)
    (hpast : ∀ p ∈ w.candidatesOf names, ∀ t ∈ w.view.modified? p, t ≤ w.clock) :
    w.Orderly names where
  past p hp t ht := hpast p hp t ht
  paths := h.respectsPaths
  reads := h.readsExisting

/-- A change of the file of a candidate is allowed if it stamps what it writes. -/
theorem allows_changeDisk (change : FileSystem → FileSystem) {time : Instant} {p : Path}
    (h : w.engine.OnDisk names) (hp : p ∈ w.candidatesOf names) (hle : w.clock ≤ time)
    (hreplaces : Replaces w.engine.disk (change w.engine.disk) (w.engine.disk.destination p))
    (hstamp : (change w.engine.disk).get? (w.engine.disk.destination p) = none ∨
      w.clock < time ∧ ∃ text, (change w.engine.disk).get? (w.engine.disk.destination p) =
        some (.file (.ofString text) time)) :
    w.Allows names (.edit time (·.changeDisk change)) ∧
      (w.engine.changeDisk change).OnDisk names := by
  obtain ⟨htext, hsource⟩ : (change w.engine.disk).IsText (w.engine.disk.destination p) ∧
      (((change w.engine.disk).source? (w.engine.disk.destination p)).map (·.2) = none ∨
        w.clock < time ∧ ((change w.engine.disk).source?
          (w.engine.disk.destination p)).map (·.2) = some time) := by
    rcases hstamp with hnone | ⟨hlt, text, hfile⟩
    · have hsource := FileSystem.source?_of_none hnone
      exact ⟨.inl hnone, .inl (by rw [hsource]; rfl)⟩
    · have hsource := FileSystem.source?_of_file hfile (Content.text?_ofString text)
      exact ⟨.inr (by rw [hsource]; rfl), .inr ⟨hlt, by rw [hsource]; rfl⟩⟩
  have hchanged := h.changeDisk hp hreplaces htext
  refine ⟨⟨⟨rfl, rfl, hle, ?_, hchanged.respectsPaths, hchanged.readsExisting⟩, ?_⟩, hchanged⟩
  · intro q hq
    rcases h.view_changeDisk hp hreplaces htext hq with hsame | hmodified
    · exact .inl hsame
    · rcases hsource with hnone | ⟨hlt, hstamp⟩
      · exact .inr (.inl (hmodified.trans hnone))
      · exact .inr (.inr ⟨hlt, hmodified.trans hstamp⟩)
  · intro name _ a hheld
    exact (h.apart.of_replaces hp hreplaces).2 _ a (h.keys _) hheld

theorem Timely.allowsAll {clock : Instant} (h : Timely w.settings names clock history)
    (hclock : w.clock = clock) (hdisk : w.engine.OnDisk names) : w.AllowsAll names history := by
  generalize hsettings : w.settings = t at h
  induction h generalizing w with
  | nil => trivial
  | @write clock time rest path text hpath hlt _ ih =>
    subst hclock hsettings
    have hfree := (hdisk.tidy path hpath).isText.ne_directory
    obtain ⟨hallowed, hchanged⟩ := allows_changeDisk
      (fun disk => disk.put (disk.destination path) (.file (.ofString text) time))
      hdisk hpath (Int.le_of_lt hlt) (FileSystem.replaces_put hfree) (.inr ⟨hlt, text, by
        rw [FileSystem.get?_put (FileSystem.ne_root_of_get?_ne hfree), if_pos rfl]⟩)
    exact ⟨hallowed, ih rfl hchanged rfl⟩
  | @delete clock time rest path hpath hle _ ih =>
    subst hclock hsettings
    have hfree := (hdisk.tidy path hpath).isText.ne_directory
    obtain ⟨hallowed, hchanged⟩ := allows_changeDisk
      (fun disk => disk.erase (disk.destination path))
      hdisk hpath hle (FileSystem.replaces_erase hfree) (.inl (by
        rw [FileSystem.get?_erase (FileSystem.ne_root_of_get?_ne hfree), if_pos rfl]))
    exact ⟨hallowed, ih rfl hchanged rfl⟩
  | @call _ _ name hname _ ih =>
    obtain ⟨hengine, hsame⟩ := w.step_call name
    refine ⟨hname, ih (hsame.trans hclock) (hengine ▸ hdisk) ?_⟩
    rw [settings, hengine]
    exact hsettings
  | advance _ ih =>
    have hstays : w.advance.engine.OnDisk names ∧
        w.advance.view.AgreeOn w.view (w.candidatesOf names) ∧
        w.advance.settings = w.settings := by
      unfold settings view
      rcases w.advance_engine with hengine | ⟨_, _, _, _, _, -, -, -, hengine⟩
      · rw [hengine]
        exact ⟨hdisk, .refl _ _, rfl⟩
      · rw [hengine]
        exact ⟨hdisk.keep.1, hdisk.keep.2, rfl⟩
    exact ⟨hstays.2.1, ih (w.advance_clock.trans hclock) hstays.1 (hstays.2.2.trans hsettings)⟩

end disk

/-! ## A source that vanishes -/

def childAndBase : ThemeSettings :=
  ⟨[⟨"child"⟩, ⟨"base"⟩], "tpl"⟩

def baseAlone : FileSystem where
  entries := [(["work"], .directory), (["work", "child"], .directory),
    (["work", "base"], .directory), (["work", "base", "page.tpl"], .file (.ofString "base") ⟨10⟩)]
  here := ["work"]
  clock := ⟨0⟩

/-- The disk with the template in both. -/
def childAbove : FileSystem :=
  baseAlone.put ["work", "child", "page.tpl"] (.file (.ofString "child") ⟨30⟩)

/-- An engine over a disk that keeps its artifacts in memory. -/
def twoDirectories (disk : FileSystem) (stored : MemoryStore) : Engine Storage :=
  ⟨⟨childAndBase, .disk⟩, ⟨.empty, false⟩, .new ⟨.memory stored, disk⟩, false⟩

def oneLayer : Workshop Storage :=
  ⟨twoDirectories baseAlone .empty, ⟨20⟩, .idle⟩

/-- A layer is there only while the candidates are read: it is written when the existing ones have
been listed, and deleted when the artifact has been stored. -/
def passingLayer : List (Event Storage) :=
  [.call "page", .advance, .advance, .advance, .advance, .advance,
    .write ⟨"child/page.tpl"⟩ "child" ⟨30⟩, .advance, .advance, .advance,
    .delete ⟨"child/page.tpl"⟩ ⟨40⟩]

theorem onDisk_oneLayer : oneLayer.engine.OnDisk ["page"] where
  storehouse := rfl
  keys := slash_notMem_cacheKey
  tidy := by decide
  apart := trivial

theorem fresh_oneLayer : oneLayer.Fresh ["page"] where
  idle := rfl
  empty := nofun
  orderly := orderly_of_onDisk onDisk_oneLayer (by decide)

theorem allowsAll_passingLayer : oneLayer.AllowsAll ["page"] passingLayer := by
  have htimely : Timely oneLayer.settings ["page"] ⟨20⟩ passingLayer :=
    .call (by decide) <| .advance <| .advance <| .advance <| .advance <| .advance <|
      .write _ (by decide) (by decide) <| .advance <| .advance <| .advance <|
        .delete (by decide) (by decide) <| .nil _
  exact htimely.allowsAll rfl onDisk_oneLayer

theorem outcome_amid_edits_passingLayer :
    oneLayer.Fresh ["page"] ∧ oneLayer.AllowsAll ["page"] passingLayer ∧
    ((oneLayer.run passingLayer).engine.outcome ⟨50⟩ "page" =
        (oneLayer.run passingLayer).engine.fromSources "page" ∨
      ∃ texts emission,
        List.Forall₂ (oneLayer.Found passingLayer) (oneLayer.settings.candidates "page") texts ∧
        (∃ p text, (p, some text) ∈ (oneLayer.settings.candidates "page").zip texts ∧
          oneLayer.Vanished passingLayer p text) ∧
        oneLayer.engine.compiler.compileLayers texts.reduceOption = .ok emission ∧
        (oneLayer.run passingLayer).engine.outcome ⟨50⟩ "page" =
          .ok (emission.code, emission.diagnostics)) :=
  ⟨fresh_oneLayer, allowsAll_passingLayer,
    outcome_amid_edits fresh_oneLayer allowsAll_passingLayer (.head _) ⟨50⟩⟩

def combined : Artifact :=
  ⟨[⟨"child/page.tpl"⟩, ⟨"base/page.tpl"⟩], "child", ⟨20⟩, [⟨"base/page.tpl"⟩], []⟩

def bothSources : List LayerSource :=
  [⟨⟨"child/page.tpl"⟩, "child"⟩, ⟨⟨"base/page.tpl"⟩, "base"⟩]

def bothLayers : Workshop Storage :=
  ⟨twoDirectories childAbove .empty, ⟨30⟩,
    .reading "page" ⟨20⟩ [⟨"base/page.tpl"⟩]
      [⟨⟨"child/page.tpl"⟩, some "child"⟩, ⟨⟨"base/page.tpl"⟩, some "base"⟩] []⟩

def layerGone : Workshop Storage :=
  ⟨twoDirectories (childAbove.erase ["work", "child", "page.tpl"])
      (.insert .empty (cacheKey combined.identity) combined), ⟨40⟩,
    .answered (.ok (combined, some ⟨"child", [], []⟩))⟩

theorem advance_bothLayers : bothLayers.advance =
    ⟨bothLayers.engine.keep "page" combined, ⟨30⟩,
      .answered (.ok (combined, some ⟨"child", [], []⟩))⟩ := by
  have hresolve : bothLayers.engine.resolve "page" = combined.identity := by decide
  have hne : bothSources ≠ [] := List.cons_ne_nil _ _
  have hcompile : bothLayers.engine.compiler.compileLayers (bothSources.map (·.text)) =
      .ok ⟨"child", [], []⟩ := by
    have hpermissive : Compiler.permissive .empty ["child", "base"] = ⟨"child", [], []⟩ := by cbv
    exact (Compiler.compileLayers_of_lenient rfl _).trans (congrArg _ hpermissive)
  show Workshop.mk (bothLayers.engine.conclude "page" ⟨20⟩ [⟨"base/page.tpl"⟩] bothSources).2 ⟨30⟩
    (.answered (bothLayers.engine.conclude "page" ⟨20⟩ [⟨"base/page.tpl"⟩] bothSources).1) = _
  rw [Engine.conclude_of_ok hne hcompile, hresolve]
  rfl

theorem run_passingLayer : oneLayer.run passingLayer = layerGone := by
  have hsplit : passingLayer =
      passingLayer.take 9 ++ [.advance] ++ [.delete ⟨"child/page.tpl"⟩ ⟨40⟩] := rfl
  have hread : oneLayer.run (passingLayer.take 9) = bothLayers := rfl
  have hresolve : bothLayers.engine.resolve "page" = combined.identity := by decide
  rw [hsplit, run_concat, run_concat, hread]
  show (bothLayers.advance).step (.delete ⟨"child/page.tpl"⟩ ⟨40⟩) = _
  rw [advance_bothLayers, Engine.keep, hresolve]
  rfl

theorem emission_layerGone : layerGone.engine.emission "page" = .ok ⟨"base", [], []⟩ := by
  have htexts : layerGone.engine.view.texts (layerGone.engine.resolve "page") = .ok ["base"] := by
    decide
  have hpermissive : Compiler.permissive .empty ["base"] = ⟨"base", [], []⟩ := by cbv
  exact (Engine.emission_of_lenient rfl htexts (List.cons_ne_nil _ _)).trans
    (congrArg _ hpermissive)

/-- The code that is handed out when no call is at work need not be that of the sources. -/
theorem not_forall_code_of_sources :
    ¬ ∀ (w : Workshop Storage) (names : List String) (history : List (Event Storage))
      (now : Instant) (name : String), w.Fresh names → w.AllowsAll names history → name ∈ names →
        (w.run history).clock ≤ now → (∃ answer, (w.run history).stage = .answered answer) →
        (w.run history).engine.outcome now name = (w.run history).engine.fromSources name := by
  intro h
  have hsame := h oneLayer ["page"] passingLayer ⟨50⟩ "page" fresh_oneLayer allowsAll_passingLayer
    (.head _)
  rw [run_passingLayer] at hsame
  have hcached : layerGone.engine.outcome ⟨50⟩ "page" = .ok ("child", []) := by
    rw [Engine.outcome, Engine.compileArtifact_of_cached (a := combined) (by decide) (by decide)]
    rfl
  have hsources : layerGone.engine.fromSources "page" = .ok ("base", []) := by
    rw [Engine.fromSources, if_pos (by decide), emission_layerGone]
    rfl
  have hcode := (hcached.symm.trans (hsame (by decide) ⟨_, rfl⟩)).trans hsources
  exact absurd (congrArg Prod.fst (Except.ok.inj hcode)) (by decide)

end Workshop

end LayeredTags
