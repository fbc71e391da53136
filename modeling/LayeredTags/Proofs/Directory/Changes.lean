import LayeredTags.Proofs.Directory.Paths
import Mathlib.Data.List.Nodup

/-!
# Changes of directories

* `FileSystem.KeepsDirectories`: a change that leaves every directory where it is, so that paths go
  on leading to them.
* `FileSystem.Grown`: a disk that has got further directories. A path that leads somewhere on it led
  there before, or nowhere at all.
* `FileSystem.grown_createDirectories`, `leads_of_createDirectories`, `createDirectories_of_leads`:
  making a directory only adds directories, and if it succeeds the directory is there; one that is
  there is left alone.
* `FileSystem.mem_namesIn_iff`, `nodup_namesIn_put`: the names in a directory.
* `FileSystem.exists_rename_written`: a file that is written under a new name and moved to its
  place.
-/

namespace LayeredTags

namespace FileSystem

variable {fs changed further : FileSystem} {path dir : Path} {l start location : Location}
  {name : String} {entry : Entry} {e : OsError}

/-! ## Further directories -/

structure KeepsDirectories (fs changed : FileSystem) : Prop where
  here : changed.here = fs.here
  get? : ∀ l, fs.get? l = some .directory → changed.get? l = some .directory

namespace KeepsDirectories

theorem trans (h : KeepsDirectories fs changed) (h' : KeepsDirectories changed further) :
    KeepsDirectories fs further :=
  ⟨h'.here.trans h.here, fun l hl => h'.get? l (h.get? l hl)⟩

theorem of_get?_of_ne (hl : fs.get? location ≠ some .directory) (hhere : changed.here = fs.here)
    (hother : ∀ d, d ≠ [] → d ≠ location → changed.get? d = fs.get? d) :
    KeepsDirectories fs changed := by
  refine ⟨hhere, fun d hd => ?_⟩
  by_cases hroot : d = []
  · rw [hroot, get?_root]
  · rw [hother d hroot fun hsame : d = location => hl (hsame ▸ hd), hd]

theorem erase (hl : fs.get? location ≠ some .directory) :
    KeepsDirectories fs (fs.erase location) :=
  of_get?_of_ne hl rfl fun _ hroot hne => by rw [get?_erase hroot, if_neg hne]

theorem put (hl : fs.get? location ≠ some .directory) :
    KeepsDirectories fs (fs.put location entry) :=
  of_get?_of_ne hl rfl fun _ hroot hne => by rw [get?_put hroot, if_neg hne]

theorem locateEntry (h : KeepsDirectories fs changed) (hlocate : fs.locateEntry path = .ok l) :
    changed.locateEntry path = .ok l := by
  have hcheck := checkPath_of_locateEntry hlocate
  rw [locateEntry_of_checkPath hcheck] at hlocate ⊢
  rw [h.here]
  exact follow_of_directories h.get? hlocate

theorem leads (h : KeepsDirectories fs changed) (hleads : fs.Leads path l) :
    changed.Leads path l :=
  ⟨h.locateEntry hleads.locateEntry, h.get? l hleads.isDirectory⟩

end KeepsDirectories

/-- The disk has got further directories, where nothing was before. -/
structure Grown (fs changed : FileSystem) : Prop where
  here : changed.here = fs.here
  get? : ∀ l, changed.get? l = fs.get? l ∨ fs.get? l = none ∧ changed.get? l = some .directory

namespace Grown

theorem refl (fs : FileSystem) : Grown fs fs :=
  ⟨rfl, fun _ => .inl rfl⟩

theorem trans (h : Grown fs changed) (h' : Grown changed further) : Grown fs further := by
  refine ⟨h'.here.trans h.here, fun l => ?_⟩
  rcases h'.get? l with hsame | ⟨hnone, hmade⟩
  · rw [hsame]
    exact h.get? l
  · rcases h.get? l with hsame | ⟨-, hmade'⟩
    · exact .inr ⟨hsame ▸ hnone, hmade⟩
    · rw [hmade'] at hnone
      cases hnone

theorem get?_of_none (h : Grown fs changed) (hnone : changed.get? l = none) :
    fs.get? l = none := by
  rcases h.get? l with hsame | ⟨-, hmade⟩
  · rw [← hsame, hnone]
  · rw [hnone] at hmade
    cases hmade

theorem get?_of_directory (h : Grown fs changed) (hdirectory : changed.get? l = some .directory) :
    fs.get? l = some .directory ∨ fs.get? l = none := by
  rcases h.get? l with hsame | ⟨hnone, -⟩
  · exact .inl (hsame ▸ hdirectory)
  · exact .inr hnone

/-- A path that can be followed with the further directories could be followed without them, or it
came to one that was missing. -/
theorem follow (h : Grown fs changed) {steps : List String}
    (hfollow : changed.follow start steps = .ok l) :
    fs.follow start steps = .ok l ∨ fs.follow start steps = .error .notFound := by
  induction steps generalizing start with
  | nil => exact .inl hfollow
  | cons name rest ih =>
    rw [FileSystem.follow] at hfollow ⊢
    obtain ⟨here, hpass, hrest⟩ := exists_of_bind_eq_ok hfollow
    obtain ⟨hdirectory, rfl⟩ := passThrough_eq_ok_iff.mp hpass
    rcases h.get?_of_directory hdirectory with hold | hnone
    · rw [passThrough_eq_ok_iff.mpr ⟨hold, rfl⟩]
      show (if name = "." then _ else _) = _ ∨ (if name = "." then _ else _) = _
      split_ifs at hrest ⊢
      · exact ih hrest
      · exact ih hrest
      · exact ih hrest
    · rw [passThrough_of_none hnone]
      exact .inr rfl

theorem locateEntry (h : Grown fs changed) (hlocate : changed.locateEntry path = .ok l) :
    fs.locateEntry path = .ok l ∨ fs.locateEntry path = .error .notFound := by
  have hcheck := checkPath_of_locateEntry hlocate
  rw [locateEntry_of_checkPath hcheck] at hlocate ⊢
  rw [h.here] at hlocate
  exact h.follow hlocate

end Grown

/-! ## Making directories -/

theorem leads_put (h : fs.locateEntry path = .ok l) (hnone : fs.get? l = none) :
    (fs.put l .directory).Leads path l := by
  have hl : fs.get? l ≠ some .directory := by simp [hnone]
  have hkeeps : KeepsDirectories fs (fs.put l .directory) := .put hl
  exact ⟨hkeeps.locateEntry h, by rw [get?_put (ne_root_of_get?_ne hl), if_pos rfl]⟩

theorem grown_put (hnone : fs.get? l = none) : Grown fs (fs.put l .directory) := by
  refine ⟨rfl, fun d => ?_⟩
  by_cases hroot : d = []
  · exact .inl (by rw [hroot, get?_root, get?_root])
  · rw [get?_put hroot]
    by_cases hd : d = l
    · rw [if_pos hd, hd]
      exact .inr ⟨hnone, rfl⟩
    · exact .inl (if_neg hd)

theorem leads_of_createDirectory (h : fs.createDirectory path = .ok changed) :
    ∃ l, changed.Leads path l := by
  obtain ⟨l, hlocate, hnone, rfl⟩ := createDirectory_eq_ok h
  exact ⟨l, leads_put hlocate hnone⟩

theorem grown_createDirectory (h : fs.createDirectory path = .ok changed) : Grown fs changed := by
  obtain ⟨l, -, hnone, rfl⟩ := createDirectory_eq_ok h
  exact grown_put hnone

theorem leads_of_orIsDirectory (h : fs.orIsDirectory path e = .ok ()) : ∃ l, fs.Leads path l := by
  rw [orIsDirectory] at h
  split at h
  · exact leads_of_stat (by assumption)
  · cases h

theorem grown_createMissing (fs : FileSystem) (paths : List Path) :
    Grown fs (fs.createMissing paths).2 := by
  induction paths with
  | nil => exact .refl fs
  | cons path above ih =>
    rw [createMissing]
    split
    · exact grown_createDirectory ‹_›
    · split
      · rename_i habove
        rwa [habove] at ih
      · rename_i habove
        rw [habove] at ih
        split
        · exact ih.trans (grown_createDirectory ‹_›)
        · exact ih
    · exact .refl fs

theorem leads_of_createMissing {above : List Path}
    (h : fs.createMissing (path :: above) = (.ok (), changed)) : ∃ l, changed.Leads path l := by
  rw [createMissing] at h
  split at h
  · obtain ⟨-, rfl⟩ := Prod.mk.inj h
    exact leads_of_createDirectory ‹_›
  · split at h
    · cases h
    · split at h
      · obtain ⟨-, rfl⟩ := Prod.mk.inj h
        exact leads_of_createDirectory ‹_›
      · obtain ⟨hor, rfl⟩ := Prod.mk.inj h
        exact leads_of_orIsDirectory hor
  · obtain ⟨hor, rfl⟩ := Prod.mk.inj h
    exact leads_of_orIsDirectory hor

theorem grown_createDirectories (fs : FileSystem) (path : Path) :
    Grown fs (fs.createDirectories path).2 := by
  rw [createDirectories]
  split
  · exact .refl fs
  · exact grown_createMissing fs _

theorem leads_of_createDirectories (hpath : path.text ≠ "")
    (h : fs.createDirectories path = (.ok (), changed)) : ∃ l, changed.Leads path l := by
  rw [createDirectories, if_neg hpath] at h
  exact leads_of_createMissing h

theorem createDirectories_of_leads (h : fs.Leads path l) :
    fs.createDirectories path = (.ok (), fs) := by
  have hne := ne_empty_of_checkPath (checkPath_of_locateEntry h.locateEntry)
  have hexists : fs.createDirectory path = .error .alreadyExists := by
    simp only [createDirectory, h.locateEntry, h.isDirectory, bind, Except.bind]
  simp only [createDirectories, if_neg hne, ancestors, createMissing, hexists, orIsDirectory,
    h.stat, if_true]

/-! ## Names in a directory -/

/-- The name of a location in a directory, if it lies there. -/
def childName? (directory location : Location) : Option String :=
  if location.dropLast = directory then location.getLast? else none

theorem childName?_eq_some_iff {directory location : Location} :
    childName? directory location = some name ↔ location = directory ++ [name] := by
  rw [childName?]
  constructor
  · intro h
    split at h
    · rename_i hdropLast
      rw [← hdropLast, List.dropLast_append_getLast? name h]
    · cases h
  · rintro rfl
    rw [List.dropLast_concat, if_pos rfl, List.getLast?_concat]

theorem namesIn_eq (fs : FileSystem) (directory : Location) : fs.namesIn directory =
    (fs.entries.filterMap fun e => childName? directory e.1).mergeSort fun a b => a ≤ b := rfl

theorem namesIn_perm (fs : FileSystem) (directory : Location) :
    (fs.namesIn directory).Perm (fs.entries.filterMap fun e => childName? directory e.1) :=
  fs.namesIn_eq directory ▸ List.mergeSort_perm _ _

theorem mem_namesIn_iff : name ∈ fs.namesIn l ↔ fs.get? (l ++ [name]) ≠ none := by
  rw [(fs.namesIn_perm l).mem_iff, List.mem_filterMap, get?, if_neg (by simp),
    ← Option.isSome_iff_ne_none, List.lookup_isSome_iff]
  simp only [childName?_eq_some_iff, beq_iff_eq]
  simp only [eq_comm]

theorem nodup_namesIn_erase {directory : Location} {p : String → Bool}
    (h : ((fs.namesIn directory).filter p).Nodup) :
    (((fs.erase l).namesIn directory).filter p).Nodup := by
  rw [((namesIn_perm _ _).filter p).nodup_iff] at h ⊢
  exact h.sublist ((List.filter_sublist.filterMap _).filter p)

theorem nodup_namesIn_put {directory : Location} {p : String → Bool}
    (h : ((fs.namesIn directory).filter p).Nodup) :
    (((fs.put l entry).namesIn directory).filter p).Nodup := by
  have hrest := nodup_namesIn_erase (l := l) h
  rw [((namesIn_perm _ _).filter p).nodup_iff] at hrest ⊢
  rw [put, List.filterMap_cons]
  split
  · exact hrest
  · rename_i name hname
    rw [List.filter_cons]
    split
    · refine List.nodup_cons.mpr ⟨fun hmem => ?_, hrest⟩
      -- An entry with the same name in the directory is at the location that was erased.
      obtain ⟨e, he, hchild⟩ := List.mem_filterMap.mp (List.mem_filter.mp hmem).1
      rw [childName?_eq_some_iff] at hname hchild
      exact absurd (hchild.trans hname.symm) (by simpa using (List.mem_filter.mp he).2)
    · exact hrest

/-! ## Temporary files -/

theorem le_foldl_max {α : Type} (size : α → Nat) (xs : List α) (n : Nat) :
    n ≤ xs.foldl (fun n x => max n (size x)) n ∧
      ∀ x ∈ xs, size x ≤ xs.foldl (fun n x => max n (size x)) n := by
  induction xs generalizing n with
  | nil => exact ⟨Nat.le_refl n, nofun⟩
  | cons x xs ih =>
    obtain ⟨hstart, hrest⟩ := ih (max n (size x))
    refine ⟨Nat.le_trans (Nat.le_max_left _ _) hstart, fun y hy => ?_⟩
    rcases List.mem_cons.mp hy with rfl | hy
    · exact Nat.le_trans (Nat.le_max_right _ _) hstart
    · exact hrest y hy

theorem get?_freshName (fs : FileSystem) (l : Location) : fs.get? (l ++ [fs.freshName]) = none := by
  by_contra h
  rw [← ne_eq, ← mem_namesIn_iff, (fs.namesIn_perm l).mem_iff] at h
  obtain ⟨e, he, hchild⟩ := List.mem_filterMap.mp h
  rw [childName?_eq_some_iff] at hchild
  have hlong := (le_foldl_max
    (fun e : Location × Entry => (e.1.getLast?.map String.length).getD 0) fs.entries 0).2 e he
  rw [hchild] at hlong
  simp only [List.getLast?_concat, Option.map_some, Option.getD_some] at hlong
  rw [freshName, String.length_ofList, List.length_cons, List.length_replicate] at hlong
  exact absurd hlong (Nat.not_succ_le_self _)

theorem createTemporary_of_leads (h : fs.Leads dir l) :
    fs.createTemporary dir = .ok (l ++ [fs.freshName],
      fs.put (l ++ [fs.freshName]) (.file [] fs.clock)) := by
  have hne := ne_empty_of_checkPath (checkPath_of_locateEntry h.locateEntry)
  simp only [createTemporary, if_neg hne, h.locate, h.passThrough, bind, Except.bind, pure,
    Except.pure]

/-- A file that is written under a new name and moved to a path is there with its content, and
everything else is as it was. -/
theorem exists_rename_written {temporary : Location} (hnew : fs.get? temporary = none)
    (hnul : holdsNul path = false) (hslash : path.endsInSlash = false)
    (hlocate : fs.locateEntry path = .ok l) (hl : fs.get? l ≠ some .directory)
    (content : Content) :
    ∃ disk, ((fs.put temporary (.file [] fs.clock)).write temporary content).rename temporary path =
        .ok disk ∧ KeepsDirectories fs disk ∧
      (∀ d ≠ [], disk.get? d = if d = l then some (.file content fs.clock) else fs.get? d) ∧
      ∀ directory p, ((fs.namesIn directory).filter p).Nodup →
        ((disk.namesIn directory).filter p).Nodup := by
  have hfree : fs.get? temporary ≠ some .directory := by simp [hnew]
  have hroot : temporary ≠ [] := ne_root_of_get?_ne hfree
  have hlRoot : l ≠ [] := ne_root_of_get?_ne hl
  -- Four changes come one after the other; none of them takes a directory away, and the location of
  -- the temporary file is free at the end as it was at the beginning.
  set made := fs.put temporary (.file [] fs.clock) with hmade
  set written := made.write temporary content with hwritten
  have hget : ∀ d ≠ [], written.get? d =
      if d = temporary then some (.file content fs.clock) else fs.get? d := by
    intro d hd
    rw [hwritten, write, get?_put hd, hmade, get?_put hd]
    split_ifs <;> rfl
  have hfile : written.get? temporary = some (.file content fs.clock) := by
    rw [hget temporary hroot, if_pos rfl]
  have hmadeFile : made.get? temporary = some (.file [] fs.clock) := by
    rw [hmade, get?_put hroot, if_pos rfl]
  have hkeepsMade : KeepsDirectories fs made := .put hfree
  have hkeeps : KeepsDirectories fs written := hkeepsMade.trans (.put (by simp [hmadeFile]))
  have hlWritten : written.get? l ≠ some .directory := by
    rw [hget l hlRoot]
    split
    · simp
    · exact hl
  have hlErased : (written.erase temporary).get? l ≠ some .directory := by
    rw [get?_erase hlRoot]
    split
    · simp
    · exact hlWritten
  have hmoved : written.rename temporary path =
      .ok ((written.erase temporary).put l (.file content fs.clock)) := by
    refine rename_of_file hnul ?_ hlWritten hfile
    rw [locate_of_not_endsInSlash hslash]
    exact hkeeps.locateEntry hlocate
  refine ⟨_, hmoved, (hkeeps.trans (.erase (by simp [hfile]))).trans (.put hlErased), ?_, ?_⟩
  · intro d hd
    rw [get?_put hd, get?_erase hd, hget d hd]
    split_ifs with hsame htemporary
    · rfl
    · rw [htemporary, hnew]
    · rfl
  · intro directory p hnodup
    exact nodup_namesIn_put (nodup_namesIn_erase (nodup_namesIn_put (nodup_namesIn_put hnodup)))

end FileSystem

end LayeredTags
