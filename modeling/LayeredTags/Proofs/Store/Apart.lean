import LayeredTags.Proofs.Source.Disk
import LayeredTags.Proofs.Store.Held
import LayeredTags.Proofs.Store.Mirror

/-!
# Stores that keep to their directory

* `FileSystem.ChangedWithin`: a change of files in one directory.
* `DirectoryStore.changedWithin_save`, `changedWithin_clear`: storing and clearing are such changes,
  whether they succeed or not.
* `DirectoryStore.Apart`, `Storage.Apart`: some paths lead to no file of the store.
* `Storage.Apart.save`, `Storage.Apart.clear`: what is at such paths is left alone.
* `Storage.Apart.of_replaces`: what others write there is none of the store's artifacts.
-/

namespace LayeredTags

namespace FileSystem

variable {fs changed further : FileSystem} {dir : Path} {l d : Location} {name : String}

/-- Files in one directory come, go or are replaced, and no directory is lost. -/
structure ChangedWithin (fs changed : FileSystem) (l : Location) : Prop where
  keeps : KeepsDirectories fs changed
  get? : ∀ d, (∀ name : String, '/' ∉ name.toList → d ≠ l ++ [name]) →
    changed.get? d = fs.get? d

namespace ChangedWithin

theorem refl (fs : FileSystem) (l : Location) : ChangedWithin fs fs l :=
  ⟨.refl fs, fun _ _ => rfl⟩

theorem trans (h : ChangedWithin fs changed l) (h' : ChangedWithin changed further l) :
    ChangedWithin fs further l :=
  ⟨h.keeps.trans h'.keeps, fun d hd => (h'.get? d hd).trans (h.get? d hd)⟩

theorem of_replaces (h : Replaces fs changed (l ++ [name])) (hslash : '/' ∉ name.toList) :
    ChangedWithin fs changed l :=
  ⟨h.keeps, fun d hd => h.get? d (hd name hslash)⟩

end ChangedWithin

theorem destination_join (hdir : dir.text ≠ "") (hslash : '/' ∉ name.toList) (hne : name ≠ "")
    (hdot : name ≠ ".") (hdots : name ≠ "..") :
    fs.destination (dir.join name) = fs.destination dir ++ [name] := by
  rw [destination_eq_foldl_steps, destination_eq_foldl_steps, Path.isAbsolute_join hdir hslash,
    Path.steps_join hdir hne hslash, List.foldl_append, List.foldl_cons, List.foldl_nil,
    stepLexically, if_neg hdot, if_neg hdots]

theorem slash_notMem_freshName (fs : FileSystem) : '/' ∉ fs.freshName.toList := by
  simp [freshName]

end FileSystem

namespace DirectoryStore

open FileSystem

variable {s : DirectoryStore} {key : String} {a : Artifact} {paths : List Path} {l : Location}
  {disk : FileSystem}

/-! ## What storing and clearing change -/

theorem slash_notMem_artifactName (hkey : '/' ∉ key.toList) :
    '/' ∉ (artifactName key).toList := by
  rw [toList_artifactName, List.mem_append, not_or]
  exact ⟨hkey, by decide⟩

theorem destination_path (hdir : s.directory.text ≠ "") (hkey : '/' ∉ key.toList)
    (disk : FileSystem) : disk.destination (s.path key) =
      disk.destination s.directory ++ [artifactName key] := by
  have hne : ∀ name : String, name.toList.length < 5 → artifactName key ≠ name := by
    rintro name hname rfl
    rw [toList_artifactName, List.length_append] at hname
    exact absurd hname (Nat.not_lt.mpr (Nat.le_add_left ..))
  exact destination_join hdir (slash_notMem_artifactName hkey) (hne "" (by decide))
    (hne "." (by decide)) (hne ".." (by decide))

theorem changedWithin_persist {name : String} (hslash : '/' ∉ name.toList)
    (hfree : s.disk.get? (l ++ [name]) ≠ some .directory)
    (hpath : s.disk.destination (s.path key) = l ++ [artifactName key])
    (hkey : '/' ∉ key.toList) :
    ChangedWithin s.disk (s.persist key a (l ++ [name])).2.disk l := by
  rw [persist]
  split
  · exact .of_replaces (replaces_erase hfree) hslash
  · rename_i text hwrite
    have hwritten : ChangedWithin s.disk (s.disk.write (l ++ [name]) (.ofString text)) l :=
      .of_replaces (replaces_put hfree) hslash
    have hfile : (s.disk.write (l ++ [name]) (.ofString text)).get? (l ++ [name]) ≠
        some .directory := by
      rw [write, get?_put (by simp), if_pos rfl]
      simp
    have herased := hwritten.trans (.of_replaces (replaces_erase hfile) hslash)
    dsimp only
    split
    · rename_i hmoved
      obtain ⟨target, entry, hlocate, htarget, -, rfl⟩ := rename_eq_ok hmoved
      have htarget' : target = l ++ [artifactName key] := by
        rw [eq_destination_of_locate hlocate, hwritten.keeps.destination, hpath]
      subst htarget'
      refine herased.trans (.of_replaces (replaces_put ?_) (slash_notMem_artifactName hkey))
      rw [get?_erase (by simp)]
      split
      · simp
      · exact htarget
    · exact herased

theorem changedWithin_save (h : s.disk.Leads s.directory l) (hkey : '/' ∉ key.toList) :
    ChangedWithin s.disk (s.save key a).2.disk l := by
  have hfree : s.disk.get? (l ++ [s.disk.freshName]) ≠ some .directory := by
    simp [get?_freshName]
  have hslash := slash_notMem_freshName s.disk
  have hmade : ChangedWithin s.disk
      (s.disk.put (l ++ [s.disk.freshName]) (.file [] s.disk.clock)) l :=
    .of_replaces (replaces_put hfree) hslash
  have hfile : (s.disk.put (l ++ [s.disk.freshName]) (.file [] s.disk.clock)).get?
      (l ++ [s.disk.freshName]) ≠ some .directory := by
    rw [get?_put (by simp), if_pos rfl]
    simp
  have hpath : (s.disk.put (l ++ [s.disk.freshName]) (.file [] s.disk.clock)).destination
      (s.path key) = l ++ [artifactName key] := by
    have hdir := ne_empty_of_checkPath (checkPath_of_locateEntry h.locateEntry)
    rw [hmade.keeps.destination, destination_path hdir hkey, eq_destination_of_locate h.locate]
  simp only [save, createDirectories_of_leads h, createTemporary_of_leads h]
  exact hmade.trans (changedWithin_persist (s := ⟨s.directory, _⟩) hslash hfile hpath hkey)

theorem changedWithin_clear (h : s.disk.Leads s.directory l)
    (hnamed : ∀ name ∈ s.disk.namesIn l, '/' ∉ name.toList) :
    ChangedWithin s.disk s.clear.2.disk l := by
  refine (clear_induction (P := fun disk => ChangedWithin s.disk disk l) (.refl _ _) ?_).2
  intro names hlist name hname hextension disk changed hdisk hremoved
  obtain rfl := Except.ok.inj (h.list_eq_ok.symm.trans hlist)
  obtain ⟨at_, content, modified, hlocate, hfile, rfl⟩ := removeFile_eq_ok hremoved
  have hdir := ne_empty_of_checkPath (checkPath_of_locateEntry h.locateEntry)
  have hslash := hnamed name hname
  have hne : ∀ other, Path.extension? other ≠ some artifactExtension → name ≠ other := by
    rintro other hother rfl
    exact hother hextension
  have hat : at_ = l ++ [name] := by
    rw [eq_destination_of_locate hlocate, hdisk.keeps.destination, destination_join hdir hslash
      (hne "" (by decide)) (hne "." (by decide)) (hne ".." (by decide)),
      eq_destination_of_locate h.locate]
  subst hat
  exact hdisk.trans (.of_replaces (replaces_erase (by simp [hfile])) hslash)

/-! ## Paths apart from the directory -/

/-- The directory of the store is there, no name in it has a slash, and no path leads to a file in
it. -/
structure Apart (s : DirectoryStore) (paths : List Path) : Prop where
  leads : s.disk.Leads s.directory (s.disk.destination s.directory)
  named : ∀ name ∈ s.disk.namesIn (s.disk.destination s.directory), '/' ∉ name.toList
  elsewhere : ∀ p ∈ paths, (s.disk.destination p).dropLast ≠ s.disk.destination s.directory

namespace Apart

theorem destination_ne (h : s.Apart paths) {p : Path} (hp : p ∈ paths) (name : String) :
    s.disk.destination p ≠ s.disk.destination s.directory ++ [name] := by
  intro hin
  refine h.elsewhere p hp ?_
  rw [hin, List.dropLast_concat]

theorem spares (h : s.Apart paths)
    (hchanged : ChangedWithin s.disk disk (s.disk.destination s.directory)) :
    s.disk.Spares disk paths :=
  ⟨hchanged.keeps, fun _ hp => hchanged.get? _ fun name _ => h.destination_ne hp name⟩

theorem of_keeps (h : s.Apart paths) (hkeeps : KeepsDirectories s.disk disk)
    (hnamed : ∀ name : String, '/' ∈ name.toList →
      disk.get? (s.disk.destination s.directory ++ [name]) =
        s.disk.get? (s.disk.destination s.directory ++ [name])) :
    Apart ⟨s.directory, disk⟩ paths where
  leads := by
    rw [hkeeps.destination]
    exact hkeeps.leads h.leads
  named name hname hslash := by
    rw [hkeeps.destination, mem_namesIn_iff, hnamed name hslash, ← mem_namesIn_iff] at hname
    exact h.named name hname hslash
  elsewhere p hp := by
    rw [hkeeps.destination, hkeeps.destination]
    exact h.elsewhere p hp

theorem of_changedWithin (h : s.Apart paths)
    (hchanged : ChangedWithin s.disk disk (s.disk.destination s.directory)) :
    Apart ⟨s.directory, disk⟩ paths := by
  refine h.of_keeps hchanged.keeps fun name hslash => hchanged.get? _ fun other hother hsame => ?_
  obtain rfl := List.singleton_inj.mp (List.append_cancel_left hsame)
  exact hother hslash

theorem of_replaces (h : s.Apart paths) {p : Path} (hp : p ∈ paths)
    (hreplaces : Replaces s.disk disk (s.disk.destination p)) :
    Apart ⟨s.directory, disk⟩ paths :=
  h.of_keeps hreplaces.keeps fun name _ => hreplaces.get? _ (h.destination_ne hp name).symm

theorem holds_of_replaces (h : s.Apart paths) {p : Path} (hp : p ∈ paths)
    (hreplaces : Replaces s.disk disk (s.disk.destination p)) (hkey : '/' ∉ key.toList)
    (hheld : Holds ⟨s.directory, disk⟩ key a) : s.Holds key a := by
  obtain ⟨content, ⟨modified, hfile⟩, hread⟩ := hheld
  have hdir := ne_empty_of_checkPath (checkPath_of_locateEntry h.leads.locateEntry)
  have hpath : s.disk.destination (s.path key) ≠ s.disk.destination p := by
    rw [destination_path hdir hkey]
    exact (h.destination_ne hp _).symm
  rw [hreplaces.keeps.destination] at hfile
  exact ⟨content, ⟨modified, (hreplaces.get? _ hpath).symm.trans hfile⟩, hread⟩

end Apart

end DirectoryStore

/-! ## The shelf of an engine -/

namespace Storage

open FileSystem

/-- The paths lead to no file of the store, if it is a directory. -/
def Apart (s : Storage) (paths : List Path) : Prop :=
  match s.shelf with
  | .directory path => DirectoryStore.Apart ⟨path, s.disk⟩ paths
  | .memory _ | .refusing _ => True

variable {s : Storage} {paths : List Path} {key : String} {a : Artifact}

theorem Apart.save (h : s.Apart paths) (hkey : '/' ∉ key.toList) :
    s.disk.Spares (ArtifactStore.save s key a).2.disk paths ∧
      (ArtifactStore.save s key a).2.Apart paths := by
  obtain ⟨shelf, disk⟩ := s
  cases shelf with
  | memory m => exact ⟨.refl _ _, trivial⟩
  | refusing r => exact ⟨.refl _ _, trivial⟩
  | directory path =>
    have hapart : DirectoryStore.Apart ⟨path, disk⟩ paths := h
    have hchanged := DirectoryStore.changedWithin_save (a := a) hapart.leads hkey
    exact ⟨hapart.spares hchanged, hapart.of_changedWithin hchanged⟩

theorem Apart.clear (h : s.Apart paths) :
    s.disk.Spares (ArtifactStore.clear s).2.disk paths ∧
      (ArtifactStore.clear s).2.Apart paths := by
  obtain ⟨shelf, disk⟩ := s
  cases shelf with
  | memory m => exact ⟨.refl _ _, trivial⟩
  | refusing r => exact ⟨.refl _ _, trivial⟩
  | directory path =>
    have hapart : DirectoryStore.Apart ⟨path, disk⟩ paths := h
    have hchanged := DirectoryStore.changedWithin_clear hapart.leads hapart.named
    exact ⟨hapart.spares hchanged, hapart.of_changedWithin hchanged⟩

theorem Apart.of_replaces (h : s.Apart paths) {p : Path} (hp : p ∈ paths) {disk : FileSystem}
    (hreplaces : Replaces s.disk disk (s.disk.destination p)) :
    Storage.Apart ⟨s.shelf, disk⟩ paths ∧ ∀ key a, '/' ∉ key.toList →
      Storage.Holds ⟨s.shelf, disk⟩ key a → s.Holds key a := by
  obtain ⟨shelf, before⟩ := s
  cases shelf with
  | memory m => exact ⟨trivial, fun _ _ _ => id⟩
  | refusing r => exact ⟨trivial, fun _ _ _ => id⟩
  | directory path =>
    have hapart : DirectoryStore.Apart ⟨path, before⟩ paths := h
    exact ⟨hapart.of_replaces hp hreplaces, fun _ _ hkey =>
      hapart.holds_of_replaces hp hreplaces hkey⟩

end Storage

end LayeredTags
