import LayeredTags.Engine.Setup
import LayeredTags.Proofs.Directory.Paths
import LayeredTags.Proofs.Engine.Outcome

/-!
# Falling back to the layers that exist

Whether a candidate exists is asked of its modification time, and any refusal of the disk counts as
missing there. Reading is stricter: it takes a path for missing only if the disk does not find it,
and every other refusal ends the loading of the whole chain.

* `FileSystem.IsBlocked`: a path that is refused for another reason than that something is missing.
* `SourceView.readLayers_of_found`, `readLayers_of_refused`: the layers of a list of paths.
* `ThemeSettings.loadLayers_of_clear`, `loadLayers_of_blocked`: the two ways in which loading the
  candidates of a name can go.
* `ThemeSettings.falls_back_iff`: whether the layers that exist are found behind those that are
  missing.
-/

namespace LayeredTags

/-! ## Paths that are refused -/

namespace FileSystem

variable {disk : FileSystem} {path : Path} {start l : Location} {name : String}
  {steps : List String} {e : OsError}

/-- A step by a name is refused: it starts at a file, or the name is too long for a directory. -/
def Hinders (disk : FileSystem) (l : Location) (name : String) : Prop :=
  (∃ content modified, disk.get? l = some (.file content modified)) ∨
    disk.get? l = some .directory ∧ name ≠ "." ∧ name ≠ ".." ∧ nameLimit < name.utf8ByteSize

/-- Some step on the way is refused. -/
def Blocks (disk : FileSystem) (start : Location) (steps : List String) : Prop :=
  ∃ before name after l, steps = before ++ name :: after ∧ disk.follow start before = .ok l ∧
    disk.Hinders l name

/-- The path cannot be followed at all, its steps are blocked, or it is that of a file with a slash
behind it. Nothing can be read at such a path, and it has no modification time. -/
def IsBlocked (disk : FileSystem) (path : Path) : Prop :=
  holdsNul path = true ∨ pathLimit < path.text.utf8ByteSize ∨
    disk.Blocks (if path.isAbsolute then [] else disk.here) path.steps ∨
    path.endsInSlash = true ∧ ∃ l content modified,
      disk.locateEntry path = .ok l ∧ disk.get? l = some (.file content modified)

theorem hinders_iff :
    disk.Hinders start name ↔ ∃ e, disk.follow start [name] = .error e ∧ e ≠ .notFound := by
  rw [Hinders, follow, passThrough]
  cases hentry : disk.get? start with
  | none => simp [bind, Except.bind]
  | some entry =>
    cases entry with
    | file content modified => simp [bind, Except.bind]
    | directory =>
      simp only [bind, Except.bind, follow]
      split_ifs <;> simp_all

theorem blocks_cons_iff : disk.Blocks start (name :: steps) ↔
    disk.Hinders start name ∨ ∃ next, disk.follow start [name] = .ok next ∧
      disk.Blocks next steps := by
  constructor
  · rintro ⟨before, hindered, after, l, hsteps, hfollow, hhinders⟩
    cases before with
    | nil =>
      obtain ⟨rfl, rfl⟩ := List.cons.inj hsteps
      obtain rfl := Except.ok.inj hfollow
      exact .inl hhinders
    | cons first before =>
      obtain ⟨rfl, rfl⟩ := List.cons.inj hsteps
      have hsplit := follow_append disk start [name] before
      rw [List.singleton_append, hfollow] at hsplit
      obtain ⟨next, hnext, hrest⟩ := exists_of_bind_eq_ok hsplit.symm
      exact .inr ⟨next, hnext, before, hindered, after, l, rfl, hrest, hhinders⟩
  · rintro (hhinders | ⟨next, hnext, before, hindered, after, l, rfl, hfollow, hhinders⟩)
    · exact ⟨[], name, steps, start, rfl, rfl, hhinders⟩
    · refine ⟨name :: before, hindered, after, l, rfl, ?_, hhinders⟩
      rw [← List.singleton_append, follow_append, hnext]
      exact hfollow

theorem blocks_iff :
    disk.Blocks start steps ↔ ∃ e, disk.follow start steps = .error e ∧ e ≠ .notFound := by
  induction steps generalizing start with
  | nil => simp [follow, Blocks]
  | cons name rest ih =>
    have hsplit : disk.follow start (name :: rest) =
        disk.follow start [name] >>= fun next => disk.follow next rest :=
      follow_append disk start [name] rest
    rw [blocks_cons_iff, hinders_iff, hsplit]
    cases hnext : disk.follow start [name] with
    | error e => simp [bind, Except.bind]
    | ok next => simp [ih, bind, Except.bind]

theorem locate_eq_error_iff {l : Location} (h : disk.locateEntry path = .ok l) :
    disk.locate path = .error e ↔ e = .notADirectory ∧ path.endsInSlash = true ∧
      ∃ content modified, disk.get? l = some (.file content modified) := by
  rw [locate, h]
  cases hentry : disk.get? l with
  | none => simp [hentry, bind, Except.bind]
  | some entry =>
    cases entry with
    | directory => simp [hentry, bind, Except.bind]
    | file content modified =>
      cases hslash : path.endsInSlash <;> simp [hentry, bind, Except.bind, eq_comm]

theorem isBlocked_iff : disk.IsBlocked path ↔ ∃ e, disk.stat path = .error e ∧ e ≠ .notFound := by
  have hstat : (∃ e, disk.stat path = .error e ∧ e ≠ .notFound) ↔
      ∃ e, disk.locate path = .error e ∧ e ≠ .notFound := by
    cases hlocate : disk.locate path with
    | error e => simp [stat_of_locate_error hlocate]
    | ok l => cases hentry : disk.get? l <;> simp [stat, hlocate, hentry, bind, Except.bind]
  rw [hstat, IsBlocked]
  cases hcheck : checkPath path with
  | error e =>
    have herror : disk.locateEntry path = .error e := by
      simp only [locateEntry, hcheck, bind, Except.bind]
    rw [locate_of_locateEntry_error herror]
    rw [checkPath] at hcheck
    split_ifs at hcheck with hnul hempty hlong
    · cases hcheck
      simp [hnul]
    · cases hcheck
      have hblocks : ¬ disk.Blocks (if path.isAbsolute then [] else disk.here) path.steps := by
        rw [show path.steps = [] by simp [Path.steps, hempty, Path.slashPieces]]
        simp [Blocks]
      simp [hnul, hempty, hblocks, herror]
    · cases hcheck
      simp [hlong]
  | ok _ =>
    obtain ⟨hnul, -, hshort⟩ := checkPath_eq_ok_iff.mp hcheck
    rw [blocks_iff, ← locateEntry_of_checkPath hcheck]
    cases hlocate : disk.locateEntry path with
    | error e => simp [hnul, Nat.not_lt.mpr hshort, locate_of_locateEntry_error hlocate]
    | ok l => simp [hnul, Nat.not_lt.mpr hshort, locate_eq_error_iff hlocate]

theorem modified?_eq_none_iff : disk.modified? path = none ↔ ∃ e, disk.stat path = .error e := by
  rw [modified?]
  cases hstat : disk.stat path with
  | error e => simp
  | ok entry => cases entry <;> simp

theorem readText_of_stat_error (h : disk.stat path = .error e) : disk.readText path = .error e := by
  simp only [readText, read_of_stat_error h, bind, Except.bind]

end FileSystem

/-! ## Layers of a list of paths -/

namespace SourceView

variable {v : SourceView} {paths : List Path}

theorem readLayers_of_found (h : ∀ p ∈ paths, ∃ text?, v.read p = .ok text? ∧
      (text?.isSome ↔ (v.modified? p).isSome)) :
    ∃ layers, v.readLayers paths = .ok layers ∧
      layers.map (·.path) = CacheManager.existing v.modified? paths ∧
      ∀ layer ∈ layers, v.read layer.path = .ok (some layer.text) := by
  induction paths with
  | nil => exact ⟨[], rfl, rfl, nofun⟩
  | cons p rest ih =>
    obtain ⟨text?, hread, hexists⟩ := h p (.head _)
    obtain ⟨layers, hlayers, hpaths, htexts⟩ := ih fun q hq => h q (.tail _ hq)
    rw [CacheManager.existing] at hpaths ⊢
    cases text? with
    | none =>
      refine ⟨layers, ?_, ?_, htexts⟩
      · simp only [readLayers, hread, hlayers, bind, Except.bind]
      · rw [List.filter_cons_of_neg (by simpa using hexists), hpaths]
    | some text =>
      refine ⟨⟨p, text⟩ :: layers, ?_, ?_, List.forall_mem_cons.mpr ⟨hread, htexts⟩⟩
      · simp only [readLayers, hread, hlayers, bind, Except.bind]
      · rw [List.filter_cons_of_pos (by simpa using hexists), List.map_cons, hpaths]

theorem readLayers_of_refused (h : ∃ p ∈ paths, ∃ err, v.read p = .error err) :
    ∃ p ∈ paths, ∃ err, v.read p = .error err ∧ v.readLayers paths = .error err := by
  induction paths with
  | nil => simp at h
  | cons p rest ih =>
    cases hread : v.read p with
    | error err =>
      refine ⟨p, .head _, err, hread, ?_⟩
      simp only [readLayers, hread, bind, Except.bind]
    | ok text? =>
      have hrest : ∃ q ∈ rest, ∃ err, v.read q = .error err := by
        simpa [hread] using h
      obtain ⟨q, hq, err, hrefused, hlayers⟩ := ih hrest
      refine ⟨q, .tail _ hq, err, hrefused, ?_⟩
      simp only [readLayers, hread, hlayers, bind, Except.bind]

end SourceView

/-! ## Candidates on a disk -/

namespace ThemeSettings

variable {t : ThemeSettings} {disk : FileSystem} {name : String} {p : Path} {e : OsError}

theorem read_of_readText {text : String} (hp : p ∈ t.candidates name)
    (h : disk.readText p = .ok text) : t.read disk p = .ok (some text) := by
  rw [read, if_pos (under_of_mem_candidates hp), h]

theorem read_of_notFound (hp : p ∈ t.candidates name) (h : disk.stat p = .error .notFound) :
    t.read disk p = .ok none := by
  rw [read, if_pos (under_of_mem_candidates hp), FileSystem.readText_of_stat_error h]

theorem read_of_stat_error (hp : p ∈ t.candidates name) (h : disk.stat p = .error e)
    (he : e ≠ .notFound) : t.read disk p = .error (.loadFailed p.text e.message) := by
  rw [read, if_pos (under_of_mem_candidates hp), FileSystem.readText_of_stat_error h]
  cases e <;> first | rfl | exact absurd rfl he

section candidates

variable (hreadable : ∀ p ∈ t.candidates name, (disk.modified? p).isSome →
  ∃ text, disk.readText p = .ok text)

include hreadable

theorem exists_read (hp : p ∈ t.candidates name) (hclear : ¬ disk.IsBlocked p) :
    ∃ text?, t.read disk p = .ok text? ∧ (text?.isSome ↔ (disk.modified? p).isSome) := by
  cases hmodified : disk.modified? p with
  | some modified =>
    obtain ⟨text, htext⟩ := hreadable p hp (by rw [hmodified]; rfl)
    exact ⟨some text, read_of_readText hp htext, by simp⟩
  | none =>
    obtain ⟨e, hstat⟩ := FileSystem.modified?_eq_none_iff.mp hmodified
    have hmissing : e = .notFound := by
      by_contra he
      exact hclear (FileSystem.isBlocked_iff.mpr ⟨e, hstat, he⟩)
    subst hmissing
    exact ⟨none, read_of_notFound hp hstat, by simp⟩

theorem loadLayers_of_clear (hpresent : ∃ p ∈ t.candidates name, (disk.modified? p).isSome)
    (hclear : ∀ p ∈ t.candidates name, ¬ disk.IsBlocked p) :
    ∃ layers, (t.view disk).loadLayers name (t.candidates name) = .ok layers ∧
      layers.map (·.path) = CacheManager.existing disk.modified? (t.candidates name) ∧
      ∀ layer ∈ layers, disk.readText layer.path = .ok layer.text := by
  obtain ⟨layers, hlayers, hpaths, htexts⟩ :=
    SourceView.readLayers_of_found (v := t.view disk) fun p hp =>
      exists_read hreadable hp (hclear p hp)
  refine ⟨layers, ?_, hpaths, fun layer hlayer => (read_eq_ok_some_iff.mp (htexts layer hlayer)).2⟩
  rw [SourceView.loadLayers, hlayers]
  cases layers with
  | cons layer rest => rfl
  | nil =>
    obtain ⟨p, hp, hexists⟩ := hpresent
    have hmem : p ∈ CacheManager.existing disk.modified? (t.candidates name) :=
      List.mem_filter.mpr ⟨hp, hexists⟩
    rw [show CacheManager.existing disk.modified? (t.candidates name) = [] from hpaths.symm] at hmem
    cases hmem

theorem loadLayers_of_blocked (hblocked : ∃ p ∈ t.candidates name, disk.IsBlocked p) :
    ∃ p ∈ t.candidates name, disk.IsBlocked p ∧ ∃ e, disk.stat p = .error e ∧
      (t.view disk).loadLayers name (t.candidates name) =
        .error (.loadFailed p.text e.message) := by
  have hrefused : ∃ p ∈ t.candidates name, ∃ err, (t.view disk).read p = .error err := by
    obtain ⟨p, hp, hblocked⟩ := hblocked
    obtain ⟨e, hstat, he⟩ := FileSystem.isBlocked_iff.mp hblocked
    exact ⟨p, hp, _, read_of_stat_error hp hstat he⟩
  obtain ⟨p, hp, err, hread, hlayers⟩ := SourceView.readLayers_of_refused hrefused
  have hblocked' : disk.IsBlocked p := by
    by_contra hclear
    obtain ⟨text?, hok, -⟩ := exists_read hreadable hp hclear
    cases hok.symm.trans hread
  obtain ⟨e, hstat, he⟩ := FileSystem.isBlocked_iff.mp hblocked'
  refine ⟨p, hp, hblocked', e, hstat, ?_⟩
  obtain rfl := Except.error.inj (hread.symm.trans (read_of_stat_error hp hstat he))
  simp only [SourceView.loadLayers, hlayers, bind, Except.bind]

end candidates

/-- **Falling back to the layers that exist.** Let some candidate exist, and every one that exists
be readable. If no candidate is blocked, the layers are exactly the existing candidates in their
order, with their texts; otherwise one that is blocked is refused. A permissive engine has an
artifact if and only if the cache has one or no candidate is blocked. -/
theorem falls_back_iff (hpresent : ∃ p ∈ t.candidates name, (disk.modified? p).isSome)
    (hreadable : ∀ p ∈ t.candidates name, (disk.modified? p).isSome →
      ∃ text, disk.readText p = .ok text) :
    ((∀ p ∈ t.candidates name, ¬ disk.IsBlocked p) ∧
        (∃ layers, (t.view disk).loadLayers name (t.candidates name) = .ok layers ∧
          layers.map (·.path) = CacheManager.existing disk.modified? (t.candidates name) ∧
          ∀ layer ∈ layers, disk.readText layer.path = .ok layer.text) ∨
      ∃ p ∈ t.candidates name, disk.IsBlocked p ∧ ∃ e, disk.stat p = .error e ∧
        (t.view disk).loadLayers name (t.candidates name) =
          .error (.loadFailed p.text e.message)) ∧
    ∀ (σ : Type) [ArtifactStore σ] [HasDisk σ] (engine : Engine σ) (now : Instant),
      engine.resolver = ⟨t, .disk⟩ → HasDisk.disk engine.cache.store = disk →
        engine.compiler.strict = false →
          ((∃ result, (engine.compileArtifact now name).1 = .ok result) ↔
            engine.cached? name ≠ none ∨ ∀ p ∈ t.candidates name, ¬ disk.IsBlocked p) := by
  refine ⟨?_, fun σ _ _ engine now hresolver hdisk hlenient => ?_⟩
  · by_cases hclear : ∀ p ∈ t.candidates name, ¬ disk.IsBlocked p
    · exact .inl ⟨hclear, loadLayers_of_clear hreadable hpresent hclear⟩
    · exact .inr (loadLayers_of_blocked hreadable (by simpa using hclear))
  · have hview : engine.view = t.view disk := by
      rw [Engine.view, hresolver, hdisk]
      rfl
    have hidentity : engine.resolve name = t.candidates name := by
      rw [Engine.resolve, hresolver]
      rfl
    have hexists : engine.isPresent name = true := by
      rw [Engine.isPresent, hidentity, hview, List.any_eq_true]
      exact hpresent
    cases hcached : engine.cached? name with
    | some a =>
      rw [Engine.compileArtifact_of_cached hexists hcached]
      simp
    | none =>
      rw [or_iff_right (by simp)]
      by_cases hclear : ∀ p ∈ t.candidates name, ¬ disk.IsBlocked p
      · obtain ⟨layers, hlayers, -, -⟩ := loadLayers_of_clear hreadable hpresent hclear
        have hemission : engine.emission name =
            .ok (Compiler.permissive engine.compiler.registry (layers.map (·.text))) := by
          rw [Engine.emission, hview, hidentity, hlayers]
          exact Compiler.compileLayers_of_lenient hlenient _
        rw [Engine.compileArtifact_of_ok hexists hcached hemission]
        exact iff_of_true ⟨_, rfl⟩ hclear
      · obtain ⟨p, -, -, e, -, hlayers⟩ :=
          loadLayers_of_blocked hreadable (by simpa using hclear)
        have hemission : engine.emission name =
            .error (.ofSourceError (.loadFailed p.text e.message)) := by
          rw [Engine.emission, hview, hidentity, hlayers]
        rw [Engine.compileArtifact_of_error hexists hcached hemission]
        exact iff_of_false (by simp) hclear

def twoThemes : ThemeSettings := ⟨[⟨"child"⟩, ⟨"base"⟩], "tpl"⟩

/-- A disk on which only the less specific theme has the template, given what is in the place of the
more specific one. -/
def themeDisk (child : Entry) : FileSystem where
  entries := [(["work"], .directory), (["work", "child"], child), (["work", "base"], .directory),
    (["work", "base", "page.tpl"], .file (Content.ofString "P") ⟨0⟩)]
  here := ["work"]
  clock := ⟨0⟩

theorem readText_themeDisk : ∀ child ∈ [Entry.directory, .file [] ⟨0⟩],
    ∀ p ∈ twoThemes.candidates "page", ((themeDisk child).modified? p).isSome →
      (themeDisk child).readText p = .ok "P" := by
  decide

def themeEngine (child : Entry) : Engine Storage where
  resolver := ⟨twoThemes, .disk⟩
  compiler := ⟨CoreTags.registry, false⟩
  cache := .new ⟨.memory .empty, themeDisk child⟩
  strictRender := false

/-- The template is found behind an empty theme, and not behind a file in the place of one. -/
theorem falls_back_iff_fileInPlaceOfTheme :
    ((∃ layers, (twoThemes.view (themeDisk .directory)).loadLayers "page"
        (twoThemes.candidates "page") = .ok layers ∧ layers.map (·.path) = [⟨"base/page.tpl"⟩]) ∧
      ∃ result, ((themeEngine .directory).compileArtifact ⟨0⟩ "page").1 = .ok result) ∧
    ∃ err, (twoThemes.view (themeDisk (.file [] ⟨0⟩))).loadLayers "page"
      (twoThemes.candidates "page") = .error err := by
  have hreadable : ∀ child ∈ [Entry.directory, .file [] ⟨0⟩],
      ∀ p ∈ twoThemes.candidates "page", ((themeDisk child).modified? p).isSome →
        ∃ text, (themeDisk child).readText p = .ok text :=
    fun child hchild p hp hexists => ⟨"P", readText_themeDisk child hchild p hp hexists⟩
  constructor
  · have hclear : ∀ p ∈ twoThemes.candidates "page", ¬ (themeDisk .directory).IsBlocked p := by
      have hfound : ∀ p ∈ twoThemes.candidates "page",
          ((themeDisk .directory).stat p).isOk ∨
            (themeDisk .directory).stat p = .error .notFound := by decide
      intro p hp hblocked
      obtain ⟨e, hstat, he⟩ := FileSystem.isBlocked_iff.mp hblocked
      have hmissing := hfound p hp
      simp [hstat, he, Except.isOk, Except.toBool] at hmissing
    obtain ⟨⟨-, layers, hlayers, hpaths, -⟩ | ⟨p, hp, hblocked, -⟩, hengine⟩ :=
      falls_back_iff (by decide) (hreadable .directory (by decide))
    · exact ⟨⟨layers, hlayers, hpaths⟩,
        (hengine Storage (themeEngine .directory) ⟨0⟩ rfl rfl rfl).mpr (.inr hclear)⟩
    · exact absurd hblocked (hclear p hp)
  · obtain ⟨⟨hclear, -⟩ | ⟨p, -, -, e, -, herror⟩, -⟩ :=
      falls_back_iff (by decide) (hreadable (.file [] ⟨0⟩) (by decide))
    · have hblocked : (themeDisk (.file [] ⟨0⟩)).IsBlocked ⟨"child/page.tpl"⟩ :=
        FileSystem.isBlocked_iff.mpr ⟨.notADirectory, by decide, by decide⟩
      exact absurd hblocked (hclear _ (by decide))
    · exact ⟨_, herror⟩

/-- It is not the case that a missing layer never stands in the way of the others: the path of the
first candidate leads through a file. -/
theorem not_forall_falls_back :
    ¬ ∀ (t : ThemeSettings) (disk : FileSystem) (name : String),
      (∃ p ∈ t.candidates name, (disk.modified? p).isSome) →
        (∀ p ∈ t.candidates name, (disk.modified? p).isSome →
          ∃ text, disk.readText p = .ok text) →
            ∃ layers, (t.view disk).loadLayers name (t.candidates name) = .ok layers := by
  intro h
  obtain ⟨layers, hlayers⟩ := h twoThemes (themeDisk (.file [] ⟨0⟩)) "page" (by decide)
    fun p hp hexists => ⟨"P", readText_themeDisk _ (by decide) p hp hexists⟩
  have hrefused : (twoThemes.view (themeDisk (.file [] ⟨0⟩))).loadLayers "page"
      (twoThemes.candidates "page") =
        .error (.loadFailed "child/page.tpl" OsError.notADirectory.message) := by decide
  cases hrefused.symm.trans hlayers

end ThemeSettings

end LayeredTags
