import LayeredTags.FileSystem
import Mathlib.Tactic.SplitIfs

/-!
# What a disk holds

* `FileSystem.get?_erase`, `FileSystem.get?_put`: what is at a location behind a change.
* `FileSystem.HoldsAt`, `FileSystem.Holds`: a file of a disk has a content.
* `FileSystem.HoldsAt.of_createDirectories`, `of_createTemporary`, `of_write`, `of_rename`: a change
  adds no content but the one that it writes.
-/

namespace LayeredTags

theorem exists_of_bind_eq_ok {ε α β : Type} {x : Except ε α} {f : α → Except ε β} {b : β}
    (h : x >>= f = .ok b) : ∃ a, x = .ok a ∧ f a = .ok b := by
  cases x with
  | error e => cases h
  | ok a => exact ⟨a, rfl, h⟩

theorem eq_ok_of_toOption {ε α : Type} {x : Except ε α} {a : α} (h : x.toOption = some a) :
    x = .ok a := by
  cases x with
  | error e => cases h
  | ok b => exact congrArg _ (Option.some.inj h)

namespace FileSystem

variable {fs changed : FileSystem} {location l : Location} {entry : Entry} {content c : Content}

/-! ## Locations -/

theorem get?_root : fs.get? [] = some .directory := rfl

theorem get?_erase (hl : l ≠ []) :
    (fs.erase location).get? l = if l = location then none else fs.get? l := by
  rw [get?, get?, if_neg hl, if_neg hl, erase]
  obtain ⟨entries, -, -⟩ := fs
  simp only
  induction entries with
  | nil => simp
  | cons e rest ih =>
    obtain ⟨at_, found⟩ := e
    by_cases hat : at_ = location
    · subst hat
      rw [List.filter_cons_of_neg (by simp), ih]
      by_cases hsame : l = at_
      · simp [hsame]
      · simp [hsame, List.lookup_cons, beq_eq_false_iff_ne.mpr hsame]
    · rw [List.filter_cons_of_pos (by simpa using hat)]
      by_cases hsame : l = at_
      · subst hsame
        simp [hat]
      · simpa [List.lookup_cons, beq_eq_false_iff_ne.mpr hsame] using ih

theorem get?_put (hl : l ≠ []) :
    (fs.put location entry).get? l = if l = location then some entry else fs.get? l := by
  by_cases hsame : l = location
  · subst hsame
    simp [get?, put, hl]
  · have herase : (fs.erase location).get? l = if l = location then none else fs.get? l :=
      get?_erase hl
    simp only [get?, if_neg hl, if_neg hsame, put, List.lookup_cons,
      beq_eq_false_iff_ne.mpr hsame] at herase ⊢
    exact herase

/-! ## What a change does -/

theorem createDirectory_eq_ok {path : Path} (h : fs.createDirectory path = .ok changed) :
    ∃ l, fs.locateEntry path = .ok l ∧ fs.get? l = none ∧ changed = fs.put l .directory := by
  obtain ⟨l, hlocate, h⟩ := exists_of_bind_eq_ok h
  split at h
  · cases h
  · exact ⟨l, hlocate, ‹_›, (Except.ok.inj h).symm⟩

theorem createTemporary_eq_ok {directory : Path}
    (h : fs.createTemporary directory = .ok (location, changed)) :
    ∃ l, fs.isDirectory l = true ∧ location = l ++ [fs.freshName] ∧
      changed = fs.put location (.file [] fs.clock) := by
  have hmade : ∀ start, (fs.passThrough start >>= fun l =>
      pure (l ++ [fs.freshName], fs.put (l ++ [fs.freshName]) (.file [] fs.clock))) =
        .ok (location, changed) → ∃ l, fs.isDirectory l = true ∧
          location = l ++ [fs.freshName] ∧ changed = fs.put location (.file [] fs.clock) := by
    intro start hstart
    obtain ⟨l, hpass, hstart⟩ := exists_of_bind_eq_ok hstart
    obtain ⟨rfl, rfl⟩ := Prod.mk.inj (Except.ok.inj hstart)
    rw [passThrough] at hpass
    split at hpass
    · obtain rfl := Except.ok.inj hpass
      exact ⟨start, by simp [isDirectory, *], rfl, rfl⟩
    · cases hpass
    · cases hpass
  rw [createTemporary] at h
  split at h
  · exact hmade fs.here h
  · obtain ⟨start, -, h⟩ := exists_of_bind_eq_ok h
    exact hmade start h

theorem rename_eq_ok {target : Path} (h : fs.rename location target = .ok changed) :
    ∃ l entry, fs.locate target = .ok l ∧ fs.get? l ≠ some .directory ∧
      fs.get? location = some entry ∧ changed = (fs.erase location).put l entry := by
  rw [rename] at h
  split at h
  · cases h
  · obtain ⟨l, hlocate, h⟩ := exists_of_bind_eq_ok h
    split at h
    · cases h
    · rename_i entry hentry hne
      exact ⟨l, entry, hlocate, hne, hentry, (Except.ok.inj h).symm⟩
    · cases h

theorem removeFile_eq_ok {path : Path} (h : fs.removeFile path = .ok changed) :
    ∃ l content modified, fs.locate path = .ok l ∧ fs.get? l = some (.file content modified) ∧
      changed = fs.erase l := by
  obtain ⟨l, hlocate, h⟩ := exists_of_bind_eq_ok h
  split at h
  · cases h
  · exact ⟨l, _, _, hlocate, ‹_›, (Except.ok.inj h).symm⟩
  · cases h

/-! ## Paths -/

theorem follow_of_directories
    (h : ∀ l, fs.get? l = some .directory → changed.get? l = some .directory)
    {start : Location} {steps : List String} (hfollow : fs.follow start steps = .ok l) :
    changed.follow start steps = .ok l := by
  induction steps generalizing start with
  | nil => exact hfollow
  | cons name rest ih =>
    rw [follow] at hfollow
    obtain ⟨here, hpass, hfollow⟩ := exists_of_bind_eq_ok hfollow
    have hpass' : changed.passThrough start = .ok here := by
      rw [passThrough] at hpass ⊢
      split at hpass
      · rw [h start ‹_›]
        exact hpass
      · cases hpass
      · cases hpass
    rw [follow, hpass']
    change (if name = "." then _ else _) = _ at hfollow
    show (if name = "." then _ else _) = _
    split_ifs at hfollow ⊢
    · exact ih hfollow
    · exact ih hfollow
    · exact ih hfollow

theorem locateEntry_of_locate {path : Path} (h : fs.locate path = .ok l) :
    fs.locateEntry path = .ok l := by
  obtain ⟨found, hfound, h⟩ := exists_of_bind_eq_ok h
  split at h
  · split at h
    · cases h
    · rw [hfound, Except.ok.inj h]
  · rw [hfound, Except.ok.inj h]

theorem read_of_locateEntry {path : Path} {modified : Instant}
    (hlocate : fs.locateEntry path = .ok l) (hfile : fs.get? l = some (.file content modified))
    (hslash : path.endsInSlash = false) : fs.read path = .ok content := by
  have hstat : fs.stat path = .ok (.file content modified) := by
    simp only [stat, locate, hlocate, hfile, hslash, bind, Except.bind, Bool.false_eq_true,
      if_false]
  rw [read, hstat]
  rfl

theorem read_rename {target : Path} {modified : Instant}
    (h : fs.rename location target = .ok changed)
    (hfile : fs.get? location = some (.file content modified))
    (hslash : target.endsInSlash = false) : changed.read target = .ok content := by
  obtain ⟨l, entry, hlocate, hl, hentry, rfl⟩ := rename_eq_ok h
  obtain rfl := Option.some.inj (hfile.symm.trans hentry)
  have hroot : l ≠ [] := fun hnil => hl (hnil ▸ get?_root)
  obtain ⟨_, hcheck, hfollow⟩ := exists_of_bind_eq_ok (locateEntry_of_locate hlocate)
  refine read_of_locateEntry ?_ (by rw [get?_put hroot, if_pos rfl]) hslash
  rw [locateEntry, hcheck]
  refine follow_of_directories (fun d hd => ?_) hfollow
  by_cases hnil : d = []
  · rw [hnil, get?_root]
  · have hneTarget : d ≠ l := by
      rintro rfl
      exact hl hd
    have hneFile : d ≠ location := by
      rintro rfl
      rw [hd] at hentry
      cases hentry
    rw [get?_put hnil, if_neg hneTarget, get?_erase hnil, if_neg hneFile, hd]

/-! ## Contents -/

def HoldsAt (fs : FileSystem) (location : Location) (content : Content) : Prop :=
  ∃ modified, fs.get? location = some (.file content modified)

def Holds (fs : FileSystem) (content : Content) : Prop :=
  ∃ location, fs.HoldsAt location content

theorem holdsAt_of_read {path : Path} (h : fs.read path = .ok content) :
    ∃ l, fs.locate path = .ok l ∧ fs.HoldsAt l content := by
  obtain ⟨entry, hstat, h⟩ := exists_of_bind_eq_ok h
  obtain ⟨l, hlocate, hstat⟩ := exists_of_bind_eq_ok hstat
  split at hstat
  · obtain rfl := Except.ok.inj hstat
    split at h
    · obtain rfl := Except.ok.inj h
      exact ⟨l, hlocate, _, ‹_›⟩
    · cases h
  · cases hstat

namespace HoldsAt

theorem ne_root (h : fs.HoldsAt l content) : l ≠ [] := by
  rintro rfl
  obtain ⟨modified, hroot⟩ := h
  cases hroot

theorem of_erase (h : (fs.erase location).HoldsAt l content) : fs.HoldsAt l content := by
  have hl := h.ne_root
  obtain ⟨modified, hfile⟩ := h
  rw [get?_erase hl] at hfile
  split at hfile
  · cases hfile
  · exact ⟨modified, hfile⟩

theorem of_put (h : (fs.put location entry).HoldsAt l content) :
    (∃ modified, entry = .file content modified) ∨ fs.HoldsAt l content := by
  have hl := h.ne_root
  obtain ⟨modified, hfile⟩ := h
  rw [get?_put hl] at hfile
  split at hfile
  · exact .inl ⟨modified, Option.some.inj hfile⟩
  · exact .inr ⟨modified, hfile⟩

theorem of_createDirectory {path : Path} (hmade : fs.createDirectory path = .ok changed)
    (h : changed.HoldsAt l content) : fs.HoldsAt l content := by
  obtain ⟨_, -, -, rfl⟩ := createDirectory_eq_ok hmade
  obtain ⟨_, hentry⟩ | hold := h.of_put
  · cases hentry
  · exact hold

theorem of_createMissing {paths : List Path} (h : (fs.createMissing paths).2.HoldsAt l content) :
    fs.HoldsAt l content := by
  induction paths with
  | nil => exact h
  | cons path above ih =>
    rw [createMissing] at h
    split at h
    · exact of_createDirectory ‹_› h
    · split at h
      · rename_i hmissing
        rw [hmissing] at ih
        exact ih h
      · rename_i hmissing
        rw [hmissing] at ih
        split at h
        · exact ih (of_createDirectory ‹_› h)
        · exact ih h
    · exact h

theorem of_createDirectories {path : Path} (h : (fs.createDirectories path).2.HoldsAt l content) :
    fs.HoldsAt l content := by
  rw [createDirectories] at h
  split at h
  · exact h
  · exact of_createMissing h

theorem of_createTemporary {directory : Path}
    (hmade : fs.createTemporary directory = .ok (location, changed))
    (h : changed.HoldsAt l content) : content = [] ∨ fs.HoldsAt l content := by
  obtain ⟨-, -, -, rfl⟩ := createTemporary_eq_ok hmade
  obtain ⟨_, hentry⟩ | hold := h.of_put
  · exact .inl (Entry.file.inj hentry).1.symm
  · exact .inr hold

theorem of_write (h : (fs.write location c).HoldsAt l content) :
    content = c ∨ fs.HoldsAt l content := by
  obtain ⟨_, hentry⟩ | hold := h.of_put
  · exact .inl (Entry.file.inj hentry).1.symm
  · exact .inr hold

theorem eq_of_write (h : (fs.write location c).HoldsAt location content) : content = c := by
  have hl := h.ne_root
  obtain ⟨modified, hfile⟩ := h
  rw [write, get?_put hl, if_pos rfl] at hfile
  exact (Entry.file.inj (Option.some.inj hfile)).1.symm

theorem of_rename {target : Path} (hmoved : fs.rename location target = .ok changed)
    (h : changed.HoldsAt l content) : fs.HoldsAt location content ∨ fs.HoldsAt l content := by
  obtain ⟨_, entry, -, -, hentry, rfl⟩ := rename_eq_ok hmoved
  obtain ⟨modified, rfl⟩ | hold := h.of_put
  · exact .inl ⟨modified, hentry⟩
  · exact .inr hold.of_erase

theorem of_removeFile {path : Path} (hremoved : fs.removeFile path = .ok changed)
    (h : changed.HoldsAt l content) : fs.HoldsAt l content := by
  obtain ⟨_, _, _, -, -, rfl⟩ := removeFile_eq_ok hremoved
  exact h.of_erase

end HoldsAt

end FileSystem

end LayeredTags
