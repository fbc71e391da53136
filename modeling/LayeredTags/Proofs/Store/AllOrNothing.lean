import LayeredTags.Proofs.Directory.Changes
import LayeredTags.Proofs.Store.Directory

/-!
# Storing is all or nothing

An artifact is written to a temporary file that is then moved to its place. Wherever that fails,
every file is as it was, and the temporary one is gone; if it succeeds, the file of the artifact is
the only one that differs.

* `FileSystem.file?`: the file at a location.
* `FileSystem.SameBut`: disks that differ at one location; `SameBut.get?_erase` is what is left
  behind a temporary file that has been removed.
* `FileSystem.exists_createTemporary_iff`, `exists_rename_iff`: when the single steps succeed.
* `DirectoryStore.AllOrNothing`: what storing an artifact may leave behind.
* `DirectoryStore.save_allOrNothing`: it leaves nothing else behind, and when it succeeds.

The directories that had to be made stay in either case. The name of the temporary file is new, so
that nothing is lost when it is written.
-/

namespace LayeredTags

namespace FileSystem

variable {fs changed further : FileSystem} {path : Path} {l location temporary : Location}
  {entry : Entry} {content : Content}

def file? (fs : FileSystem) (location : Location) : Option (Content × Instant) :=
  match fs.get? location with
  | some (.file content modified) => some (content, modified)
  | some .directory | none => none

theorem file?_congr (h : changed.get? l = fs.get? l) : changed.file? l = fs.file? l := by
  rw [file?, file?, h]

theorem Grown.file?_eq (h : Grown fs changed) (l : Location) : changed.file? l = fs.file? l := by
  rcases h.get? l with hsame | ⟨hnone, hmade⟩
  · exact file?_congr hsame
  · rw [file?, file?, hnone, hmade]

structure SameBut (fs changed : FileSystem) (location : Location) : Prop where
  here : changed.here = fs.here
  get? : ∀ l ≠ location, changed.get? l = fs.get? l

namespace SameBut

theorem trans (h : SameBut fs changed location) (h' : SameBut changed further location) :
    SameBut fs further location :=
  ⟨h'.here.trans h.here, fun l hl => (h'.get? l hl).trans (h.get? l hl)⟩

theorem put : SameBut fs (fs.put location entry) location := by
  refine ⟨rfl, fun l hl => ?_⟩
  by_cases hroot : l = []
  · rw [hroot, get?_root, get?_root]
  · rw [get?_put hroot, if_neg hl]

theorem get?_erase (h : SameBut fs changed location) (hfree : fs.get? location = none)
    (l : Location) : (changed.erase location).get? l = fs.get? l := by
  by_cases hroot : l = []
  · rw [hroot, get?_root, get?_root]
  · rw [FileSystem.get?_erase hroot]
    by_cases hl : l = location
    · rw [if_pos hl, hl, hfree]
    · rw [if_neg hl, h.get? l hl]

theorem directory_iff (h : SameBut fs changed location) (hfree : fs.get? location = none)
    (hfile : changed.get? location ≠ some .directory) :
    changed.get? l = some .directory ↔ fs.get? l = some .directory := by
  by_cases hl : l = location
  · rw [hl, hfree]
    exact iff_of_false hfile (by simp)
  · rw [h.get? l hl]

theorem locate_iff (h : SameBut fs changed location) (hfree : fs.get? location = none)
    (hfile : changed.get? location ≠ some .directory) (hslash : path.endsInSlash = false) :
    changed.locate path = .ok l ↔ fs.locate path = .ok l := by
  have hforth : KeepsDirectories fs changed :=
    ⟨h.here, fun _ => (h.directory_iff hfree hfile).mpr⟩
  have hback : KeepsDirectories changed fs :=
    ⟨h.here.symm, fun _ => (h.directory_iff hfree hfile).mp⟩
  rw [locate_of_not_endsInSlash hslash, locate_of_not_endsInSlash hslash]
  exact ⟨hback.locateEntry, hforth.locateEntry⟩

end SameBut

theorem locate_rename (hslash : path.endsInSlash = false)
    (hlocate : fs.locate path = .ok l) (hl : fs.get? l ≠ some .directory)
    (hfile : fs.get? temporary ≠ some .directory) :
    ((fs.erase temporary).put l entry).locate path = .ok l := by
  have herased : (fs.erase temporary).get? l ≠ some .directory := by
    rw [FileSystem.get?_erase (ne_root_of_get?_ne hl)]
    split
    · simp
    · exact hl
  have hkeeps : KeepsDirectories fs ((fs.erase temporary).put l entry) :=
    (KeepsDirectories.erase hfile).trans (.put herased)
  rw [locate_of_not_endsInSlash hslash] at hlocate ⊢
  exact hkeeps.locateEntry hlocate

theorem exists_rename_iff (hfile : fs.get? temporary = some entry) :
    (∃ disk, fs.rename temporary path = .ok disk) ↔
      ∃ l, fs.locate path = .ok l ∧ fs.get? l ≠ some .directory := by
  constructor
  · rintro ⟨disk, hmoved⟩
    obtain ⟨l, -, hlocate, hl, -⟩ := rename_eq_ok hmoved
    exact ⟨l, hlocate, hl⟩
  · rintro ⟨l, hlocate, hl⟩
    have hcheck := checkPath_of_locateEntry (locateEntry_of_locate hlocate)
    exact ⟨_, rename_of_file (checkPath_eq_ok_iff.mp hcheck).1 hlocate hl hfile⟩

theorem exists_createTemporary_iff (h : fs.createDirectories path = (.ok (), changed)) :
    (∃ made, changed.createTemporary path = .ok made) ↔
      (path.text = "" → fs.get? fs.here = some .directory) := by
  by_cases hpath : path.text = ""
  · rw [createDirectories, if_pos hpath] at h
    obtain ⟨-, rfl⟩ := Prod.mk.inj h
    rw [createTemporary, if_pos hpath, forall_prop_of_true hpath]
    constructor
    · rintro ⟨made, hmade⟩
      obtain ⟨_, hhere, hmade⟩ := exists_of_bind_eq_ok hmade
      obtain rfl := Except.ok.inj hhere
      obtain ⟨_, hpass, -⟩ := exists_of_bind_eq_ok hmade
      exact (passThrough_eq_ok_iff.mp hpass).1
    · intro hhere
      exact ⟨_, by simp only [passThrough_eq_ok_iff.mpr ⟨hhere, rfl⟩, bind, Except.bind]; rfl⟩
  · obtain ⟨l, hleads⟩ := leads_of_createDirectories hpath h
    exact iff_of_true ⟨_, createTemporary_of_leads hleads⟩ fun hempty => absurd hempty hpath

end FileSystem

namespace DirectoryStore

open FileSystem

/-- What storing an artifact under a path may come to, given the disk before. With an error every
location holds the file that it held, if any. Otherwise the path leads to a file with the whole text
of the artifact, and every other location holds the file that it held. -/
def AllOrNothing (path : Path) (a : Artifact) (before : FileSystem) :
    Except StoreError Unit × DirectoryStore → Prop
  | (.error _, s) => ∀ l, s.disk.file? l = before.file? l
  | (.ok (), s) => ∃ target text modified, s.disk.locate path = .ok target ∧
      a.write = .ok text ∧ s.disk.file? target = some (.ofString text, modified) ∧
      ∀ l ≠ target, s.disk.file? l = before.file? l

/-- The text of an artifact can be moved to its path: the artifact has a text, and the path leads
somewhere, but not to a directory. -/
def Admits (path : Path) (a : Artifact) (disk : FileSystem) : Prop :=
  ¬ a.recorded.sinceEpoch < 0 ∧
    ∃ target, disk.locate path = .ok target ∧ disk.get? target ≠ some .directory

variable {a : Artifact} {before disk : FileSystem} {temporary : Location}

theorem AllOrNothing.of_file?_eq {path : Path} {result : Except StoreError Unit × DirectoryStore}
    (hfiles : ∀ l, disk.file? l = before.file? l) (h : AllOrNothing path a disk result) :
    AllOrNothing path a before result := by
  match result, h with
  | (.error _, s), h => exact fun l => (h l).trans (hfiles l)
  | (.ok (), s), ⟨target, text, modified, hlocate, hwrite, hfile, hothers⟩ =>
    exact ⟨target, text, modified, hlocate, hwrite, hfile, fun l hl =>
      (hothers l hl).trans (hfiles l)⟩

theorem allOrNothing_persist (s : DirectoryStore) (key : String) (a : Artifact)
    (hput : SameBut before s.disk temporary) (hfree : before.get? temporary = none) :
    AllOrNothing (s.path key) a before (s.persist key a temporary) ∧
      ((s.persist key a temporary).1 = .ok () ↔ Admits (s.path key) a before) := by
  have htemporary : temporary ≠ [] := by
    rintro rfl
    cases hfree
  rw [persist]
  cases hwrite : a.write with
  | error fault =>
    refine ⟨fun l => file?_congr (hput.get?_erase hfree l), iff_of_false (by simp) fun h => ?_⟩
    obtain ⟨text, htext⟩ := Artifact.exists_write h.1
    rw [hwrite] at htext
    cases htext
  | ok text =>
    have hwritten : SameBut before (s.disk.write temporary (.ofString text)) temporary :=
      hput.trans .put
    have hfile : (s.disk.write temporary (.ofString text)).get? temporary =
        some (.file (.ofString text) s.disk.clock) := by
      rw [FileSystem.write, get?_put htemporary, if_pos rfl]
    have hadmits : (∃ disk, (s.disk.write temporary (.ofString text)).rename temporary
        (s.path key) = .ok disk) ↔ Admits (s.path key) a before := by
      rw [Admits, and_iff_right (Artifact.exists_printed hwrite).1, exists_rename_iff hfile]
      simp only [ne_eq, hwritten.locate_iff hfree (by simp [hfile]) (s.endsInSlash_path key),
        hwritten.directory_iff hfree (by simp [hfile])]
    cases hmoved : (s.disk.write temporary (.ofString text)).rename temporary (s.path key) with
    | error e =>
      rw [hmoved] at hadmits
      simp only [hmoved]
      refine ⟨fun l => file?_congr (hwritten.get?_erase hfree l), iff_of_false (by simp) ?_⟩
      intro h
      obtain ⟨disk, hdisk⟩ := hadmits.mpr h
      cases hdisk
    | ok disk =>
      rw [hmoved] at hadmits
      simp only [hmoved]
      refine ⟨?_, iff_of_true trivial (hadmits.mp ⟨disk, rfl⟩)⟩
      obtain ⟨target, entry, hlocate, htarget, hentry, rfl⟩ := rename_eq_ok hmoved
      obtain rfl := Option.some.inj (hfile.symm.trans hentry)
      refine ⟨target, text, s.disk.clock, ?_, hwrite, ?_, fun l hl => file?_congr ?_⟩
      · exact locate_rename (s.endsInSlash_path key) hlocate htarget (by simp [hfile])
      · rw [file?, get?_put (ne_root_of_get?_ne htarget), if_pos rfl]
      · rw [SameBut.put.get? l hl, hwritten.get?_erase hfree]

/-- **Storing an artifact is all or nothing**, whatever the disk holds, and whatever the directory,
the key and the artifact are. It succeeds if and only if the directory can be made, the artifact has
a text, and its path then leads somewhere, but not to a directory; the empty path of a directory
stands for the working directory, which must be there. -/
theorem save_allOrNothing (s : DirectoryStore) (key : String) (a : Artifact) :
    AllOrNothing (s.path key) a s.disk (s.save key a) ∧
      ((s.save key a).1 = .ok () ↔
        (s.disk.createDirectories s.directory).1 = .ok () ∧
          (s.directory.text = "" → s.disk.get? s.disk.here = some .directory) ∧
          Admits (s.path key) a (s.disk.createDirectories s.directory).2) := by
  have hgrown := grown_createDirectories s.disk s.directory
  rw [save]
  split
  · rename_i e disk hmade
    rw [hmade] at hgrown ⊢
    exact ⟨hgrown.file?_eq, iff_of_false (by simp) (by simp)⟩
  · rename_i disk hmade
    have hexists := exists_createTemporary_iff hmade
    rw [hmade] at hgrown ⊢
    rw [and_iff_right rfl, ← hexists]
    split
    · rename_i e htemporary
      refine ⟨hgrown.file?_eq, iff_of_false (by simp) ?_⟩
      rintro ⟨⟨made, hmade⟩, -⟩
      rw [htemporary] at hmade
      cases hmade
    · rename_i temporary written htemporary
      obtain ⟨l, -, rfl, rfl⟩ := createTemporary_eq_ok htemporary
      have hpersist := allOrNothing_persist { s with disk := _ } key a
        (SameBut.put : SameBut disk (disk.put _ (.file [] disk.clock)) _) (disk.get?_freshName l)
      exact ⟨hpersist.1.of_file?_eq hgrown.file?_eq,
        hpersist.2.trans (and_iff_right ⟨_, htemporary⟩).symm⟩

end DirectoryStore

end LayeredTags
