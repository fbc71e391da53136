import LayeredTags.Proofs.Directory.Changes
import LayeredTags.Proofs.Source.View

/-!
# Sources on a disk

* `FileSystem.Replaces`: a change of what is at one location, where no directory is.
* `FileSystem.Tidy`: the directories on the way to a path are there, and at its end is a file of
  text or nothing.
* `FileSystem.Tidy.read_eq`, `FileSystem.Tidy.modified?_eq`: what is seen of such a path depends on
  the location that it leads to.
* `FileSystem.Spares`: a change that leaves alone what is at some paths.
* `ThemeSettings.agreeOn_view`, `respectsPaths_view`, `readsExisting_view`: so the candidates are
  seen the same behind such a change, and only the components of their paths count.
-/

namespace LayeredTags

theorem Content.text?_ofString (s : String) : (Content.ofString s).text? = some s := by
  have hchars : ∀ cs : List Char, (cs.map Glyph.char).mapM Glyph.char? = some cs := by
    intro cs
    induction cs with
    | nil => rfl
    | cons c cs ih => simp [List.mapM_cons, Glyph.char?, ih]
  rw [text?, ofString, hchars, Option.map_some, String.ofList_toList]

def Entry.source? : Entry → Option (String × Instant)
  | .directory => none
  | .file content modified => content.text?.map (·, modified)

namespace FileSystem

variable {fs changed : FileSystem} {path p q : Path} {l d : Location} {entry : Entry}
  {paths : List Path}

/-! ## Changes at one location -/

namespace KeepsDirectories

theorem refl (fs : FileSystem) : KeepsDirectories fs fs :=
  ⟨rfl, fun _ => id⟩

theorem destination (h : KeepsDirectories fs changed) (path : Path) :
    changed.destination path = fs.destination path := by
  rw [FileSystem.destination, FileSystem.destination, h.here]

end KeepsDirectories

/-- What is at one location comes, goes or is replaced, and no directory is lost. -/
structure Replaces (fs changed : FileSystem) (l : Location) : Prop where
  keeps : KeepsDirectories fs changed
  get? : ∀ d ≠ l, changed.get? d = fs.get? d

theorem replaces_put (h : fs.get? l ≠ some .directory) : Replaces fs (fs.put l entry) l := by
  refine ⟨.put h, fun d hd => ?_⟩
  by_cases hroot : d = []
  · rw [hroot, get?_root, get?_root]
  · rw [get?_put hroot, if_neg hd]

theorem replaces_erase (h : fs.get? l ≠ some .directory) : Replaces fs (fs.erase l) l := by
  refine ⟨.erase h, fun d hd => ?_⟩
  by_cases hroot : d = []
  · rw [hroot, get?_root, get?_root]
  · rw [get?_erase hroot, if_neg hd]

/-! ## Paths of text files -/

def source? (fs : FileSystem) (l : Location) : Option (String × Instant) :=
  (fs.get? l).bind Entry.source?

/-- At a location is a file of text or nothing. -/
def IsText (fs : FileSystem) (l : Location) : Prop :=
  fs.get? l = none ∨ (fs.source? l).isSome

instance (fs : FileSystem) (l : Location) : Decidable (fs.IsText l) :=
  inferInstanceAs (Decidable (_ ∨ _))

/-- The directories on the way are there, and at the end is a file of text or nothing. -/
def Tidy (fs : FileSystem) (path : Path) : Prop :=
  fs.locateEntry path = .ok (fs.destination path) ∧ path.endsInSlash = false ∧
    fs.IsText (fs.destination path)

instance (fs : FileSystem) (path : Path) : Decidable (fs.Tidy path) :=
  inferInstanceAs (Decidable (_ ∧ _))

theorem source?_congr (h : changed.get? l = fs.get? l) : changed.source? l = fs.source? l := by
  rw [source?, source?, h]

theorem IsText.cases (h : fs.IsText l) : fs.get? l = none ∨ ∃ content modified text,
    fs.get? l = some (.file content modified) ∧ content.text? = some text := by
  rcases h with hnone | htext
  · exact .inl hnone
  · obtain ⟨source, hsource⟩ := Option.isSome_iff_exists.mp htext
    obtain ⟨entry, hentry, hsource⟩ := Option.bind_eq_some_iff.mp hsource
    cases entry with
    | directory => cases hsource
    | file content modified =>
      obtain ⟨text, htext, -⟩ := Option.map_eq_some_iff.mp hsource
      exact .inr ⟨content, modified, text, hentry, htext⟩

theorem source?_of_none (h : fs.get? l = none) : fs.source? l = none := by
  rw [source?, h]
  rfl

theorem source?_of_file {content : Content} {modified : Instant} {text : String}
    (h : fs.get? l = some (.file content modified)) (htext : content.text? = some text) :
    fs.source? l = some (text, modified) := by
  rw [source?, h]
  simp [Entry.source?, htext]

theorem IsText.ne_directory (h : fs.IsText l) : fs.get? l ≠ some .directory := by
  rcases h.cases with hnone | ⟨content, modified, text, hfile, -⟩
  · simp [hnone]
  · simp [hfile]

namespace Tidy

theorem isText (h : fs.Tidy path) : fs.IsText (fs.destination path) :=
  h.2.2

theorem of_keeps (h : fs.Tidy path) (hkeeps : KeepsDirectories fs changed)
    (htext : changed.IsText (fs.destination path)) : changed.Tidy path := by
  rw [Tidy, hkeeps.destination]
  exact ⟨hkeeps.locateEntry h.1, h.2.1, htext⟩

theorem stat_of_none (h : fs.Tidy path) (hnone : fs.get? (fs.destination path) = none) :
    fs.stat path = .error .notFound :=
  stat_of_locate_none ((locate_of_not_endsInSlash h.2.1).trans h.1) hnone

theorem stat_of_some (h : fs.Tidy path) (hentry : fs.get? (fs.destination path) = some entry) :
    fs.stat path = .ok entry := by
  simp only [stat, (locate_of_not_endsInSlash h.2.1).trans h.1, hentry, bind, Except.bind]

theorem modified?_eq (h : fs.Tidy path) :
    fs.modified? path = (fs.source? (fs.destination path)).map (·.2) := by
  rcases h.isText.cases with hnone | ⟨content, modified, text, hfile, htext⟩
  · rw [modified?, h.stat_of_none hnone, source?_of_none hnone]
    rfl
  · rw [modified?, h.stat_of_some hfile, source?_of_file hfile htext]
    rfl

theorem read_eq {t : ThemeSettings} (h : fs.Tidy path)
    (hunder : ∃ dir ∈ t.directories, path.Under dir) :
    t.read fs path = .ok ((fs.source? (fs.destination path)).map (·.1)) := by
  rw [ThemeSettings.read, if_pos hunder]
  rcases h.isText.cases with hnone | ⟨content, modified, text, hfile, htext⟩
  · have hread := read_of_stat_error (h.stat_of_none hnone)
    simp only [readText, hread, source?_of_none hnone, bind, Except.bind, Option.map_none]
  · have hstat := h.stat_of_some hfile
    simp only [readText, read, hstat, htext, source?_of_file hfile htext, bind, Except.bind,
      Option.map_some]

end Tidy

/-- A change of a disk that loses no directory and leaves alone what is at some paths. -/
structure Spares (fs changed : FileSystem) (paths : List Path) : Prop where
  keeps : KeepsDirectories fs changed
  get? : ∀ p ∈ paths, changed.get? (fs.destination p) = fs.get? (fs.destination p)

theorem Spares.refl (fs : FileSystem) (paths : List Path) : Spares fs fs paths :=
  ⟨.refl fs, fun _ _ => rfl⟩

theorem IsText.congr (h : fs.IsText l) (hsame : changed.get? l = fs.get? l) : changed.IsText l := by
  rw [IsText, hsame, source?_congr hsame]
  exact h

theorem Spares.tidy (h : Spares fs changed paths) (htidy : ∀ p ∈ paths, fs.Tidy p) :
    ∀ p ∈ paths, changed.Tidy p :=
  fun p hp => (htidy p hp).of_keeps h.keeps ((htidy p hp).isText.congr (h.get? p hp))

end FileSystem

/-! ## Candidates on a disk -/

namespace ThemeSettings

open FileSystem

variable {t : ThemeSettings} {disk changed : FileSystem} {names : List String}

theorem under_of_mem_candidatesOf {p : Path} (hp : p ∈ t.candidatesOf names) :
    ∃ dir ∈ t.directories, p.Under dir := by
  obtain ⟨name, -, hp⟩ := List.mem_flatMap.mp hp
  exact under_of_mem_candidates hp

theorem view_congr {p q : Path} (hp : p ∈ t.candidatesOf names) (hq : q ∈ t.candidatesOf names)
    (htidy : disk.Tidy p) (htidy' : changed.Tidy q)
    (hsame : disk.source? (disk.destination p) = changed.source? (changed.destination q)) :
    (t.view disk).read p = (t.view changed).read q ∧
      (t.view disk).modified? p = (t.view changed).modified? q := by
  constructor
  · refine (htidy.read_eq (under_of_mem_candidatesOf hp)).trans ?_
    rw [hsame]
    exact (htidy'.read_eq (under_of_mem_candidatesOf hq)).symm
  · refine htidy.modified?_eq.trans ?_
    rw [hsame]
    exact htidy'.modified?_eq.symm

variable (htidy : ∀ p ∈ t.candidatesOf names, disk.Tidy p)

include htidy

theorem agreeOn_view (h : Spares disk changed (t.candidatesOf names)) :
    (t.view changed).AgreeOn (t.view disk) (t.candidatesOf names) := by
  intro p hp
  refine view_congr hp hp (h.tidy htidy p hp) (htidy p hp) ?_
  rw [h.keeps.destination]
  exact source?_congr (h.get? p hp)

theorem respectsPaths_view : (t.view disk).RespectsPaths (t.candidatesOf names) := by
  intro p hp q hq hsame
  refine view_congr hp hq (htidy p hp) (htidy q hq) ?_
  rw [destination, hsame, ← destination]

theorem readsExisting_view : (t.view disk).ReadsExisting (t.candidatesOf names) := by
  intro p hp
  have hread : (t.view disk).read p = _ := (htidy p hp).read_eq (under_of_mem_candidatesOf hp)
  have hmodified : (t.view disk).modified? p = _ := (htidy p hp).modified?_eq
  rw [hread, hmodified]
  cases disk.source? (disk.destination p) <;> simp

end ThemeSettings

end LayeredTags
