import LayeredTags.Proofs.Artifact.Format
import LayeredTags.Proofs.Path
import LayeredTags.Store.Directory

/-!
# Files of a directory of artifacts

* `DirectoryStore.load_save`: an artifact that has been stored is loaded.
* `DirectoryStore.holdsAt_of_load`: an artifact that is loaded stands in the file of its key.
* `DirectoryStore.holdsAt_save`: what stands in a file after an artifact has been stored.
-/

namespace LayeredTags

theorem Path.endsInSlash_join (dir : Path) {file : String}
    (h : ∃ c, file.toList.getLast? = some c ∧ c ≠ '/') : (dir.join file).endsInSlash = false := by
  obtain ⟨c, hlast, hc⟩ := h
  rw [join]
  split
  · simp [endsInSlash, hlast, hc]
  · split <;> simp [endsInSlash, String.toList_append, List.getLast?_append,
      List.getLast?_cons, hlast, hc]

namespace DirectoryStore

variable {s : DirectoryStore} {key : String} {a : Artifact} {content : Content} {l : Location}

theorem load_of_read (h : s.disk.read (s.path key) = .ok content) :
    s.load key = ((Artifact.read content).map some).mapError .format := by
  delta load
  rw [h]

theorem load_of_error {e : OsError} (h : s.disk.read (s.path key) = .error e) :
    s.load key = if e = .notFound then .ok none else .error (osError e) := by
  delta load
  rw [h]
  cases e <;> rfl

theorem holdsAt_of_load (h : s.load key = .ok (some a)) :
    ∃ content, s.disk.HoldsAt (s.disk.destination (s.path key)) content ∧
      Artifact.read content = .ok a := by
  cases hread : s.disk.read (s.path key) with
  | error e =>
    rw [load_of_error hread] at h
    split at h <;> cases h
  | ok content =>
    rw [load_of_read hread] at h
    obtain ⟨l, hlocate, hheld⟩ := FileSystem.holdsAt_of_read hread
    refine ⟨content, FileSystem.eq_destination_of_locate hlocate ▸ hheld, ?_⟩
    cases hdecoded : Artifact.read content with
    | error fault => rw [hdecoded] at h; cases h
    | ok b =>
      rw [hdecoded] at h
      rw [Option.some.inj (Except.ok.inj h)]

theorem holdsAt_persist {temporary : Location}
    (h : (s.persist key a temporary).2.disk.HoldsAt l content) :
    s.disk.HoldsAt l content ∨ ∃ text, a.write = .ok text ∧ content = .ofString text := by
  rw [persist] at h
  cases hwrite : a.write with
  | error fault =>
    rw [hwrite] at h
    exact .inl h.of_erase
  | ok text =>
    rw [hwrite] at h
    have hwritten : (s.disk.write temporary (.ofString text)).HoldsAt l content →
        s.disk.HoldsAt l content ∨ ∃ t, a.write = .ok t ∧ content = .ofString t := by
      intro hold
      rcases hold.of_write with rfl | hold
      · exact .inr ⟨text, hwrite, rfl⟩
      · exact .inl hold
    rw [← hwrite]
    cases hmoved : (s.disk.write temporary (.ofString text)).rename temporary (s.path key) with
    | ok disk =>
      simp only [hmoved] at h
      rcases FileSystem.HoldsAt.of_rename hmoved h with htemporary | hold
      · exact .inr ⟨text, hwrite, htemporary.eq_of_write⟩
      · exact hwritten hold
    | error e =>
      simp only [hmoved] at h
      exact hwritten (FileSystem.HoldsAt.of_erase h)

theorem holdsAt_save (h : (s.save key a).2.disk.HoldsAt l content) :
    s.disk.HoldsAt l content ∨ content = [] ∨
      ∃ text, a.write = .ok text ∧ content = .ofString text := by
  have hmade : ∀ disk, (s.disk.createDirectories s.directory).2 = disk →
      disk.HoldsAt l content → s.disk.HoldsAt l content := by
    rintro disk rfl hold
    exact hold.of_createDirectories
  rw [save] at h
  split at h
  · exact .inl (hmade _ (by simp [*]) h)
  · rename_i disk hdirectories
    split at h
    · exact .inl (hmade _ (by simp [*]) h)
    · rename_i temporary made htemporary
      rcases holdsAt_persist h with hold | hold
      · rcases FileSystem.HoldsAt.of_createTemporary htemporary hold with rfl | hold
        · exact .inr (.inl rfl)
        · exact .inl (hmade _ (by simp [*]) hold)
      · exact .inr (.inr hold)

theorem directory_persist {temporary : Location} :
    (s.persist key a temporary).2.directory = s.directory := by
  rw [persist]
  split
  · rfl
  · dsimp only
    split <;> rfl

theorem directory_save : (s.save key a).2.directory = s.directory := by
  rw [save]
  split
  · rfl
  · split
    · rfl
    · exact directory_persist

theorem endsInSlash_path (s : DirectoryStore) (key : String) :
    (s.path key).endsInSlash = false :=
  Path.endsInSlash_join _ ⟨'n', by
    simp [artifactExtension, String.toList_append, List.getLast?_append], by decide⟩

theorem load_persist {temporary : Location} (hroot : temporary ≠ [])
    (h : (s.persist key a temporary).1 = .ok ())
    (hclock : a.recorded.seconds < Instant.secondsBound) :
    (s.persist key a temporary).2.load key = .ok (some a) := by
  rw [persist] at h ⊢
  cases hwrite : a.write with
  | error fault => rw [hwrite] at h; cases h
  | ok text =>
    cases hmoved : (s.disk.write temporary (.ofString text)).rename temporary (s.path key) with
    | error e => simp only [hwrite, hmoved] at h; cases h
    | ok disk =>
      have hfile : (s.disk.write temporary (.ofString text)).get? temporary =
          some (.file (.ofString text) s.disk.clock) := by
        rw [FileSystem.write, FileSystem.get?_put hroot, if_pos rfl]
      have hread : disk.read (s.path key) = .ok (.ofString text) :=
        FileSystem.read_rename hmoved hfile (s.endsInSlash_path key)
      have hload : DirectoryStore.load ⟨s.directory, disk⟩ key = _ :=
        load_of_read (s := ⟨s.directory, disk⟩) hread
      simp only [hmoved]
      rw [hload, Artifact.read_write hwrite hclock]
      rfl

theorem removeEach_induction {P : FileSystem → Prop} {names : List String} (hstart : P s.disk)
    (hstep : ∀ name ∈ names, ∀ disk changed, P disk →
      disk.removeFile (s.directory.join name) = .ok changed → P changed) :
    (s.removeEach names).2.directory = s.directory ∧ P (s.removeEach names).2.disk := by
  induction names generalizing s with
  | nil => exact ⟨rfl, hstart⟩
  | cons name rest ih =>
    unfold removeEach
    split
    · rename_i disk hremoved
      exact ih (s := ⟨s.directory, disk⟩) (hstep name (.head _) _ _ hstart hremoved)
        fun other hother => hstep other (.tail _ hother)
    · exact ⟨rfl, hstart⟩

theorem clear_induction {P : FileSystem → Prop} (hstart : P s.disk)
    (hstep : ∀ names, s.disk.list s.directory = .ok names → ∀ name ∈ names,
      Path.extension? name = some artifactExtension → ∀ disk changed, P disk →
        disk.removeFile (s.directory.join name) = .ok changed → P changed) :
    s.clear.2.directory = s.directory ∧ P s.clear.2.disk := by
  unfold clear
  split
  · rename_i names hlist
    refine removeEach_induction hstart fun name hname => ?_
    obtain ⟨hmem, hextension⟩ := List.mem_filter.mp hname
    exact hstep names hlist name hmem (of_decide_eq_true hextension)
  · exact ⟨rfl, hstart⟩
  · exact ⟨rfl, hstart⟩

theorem directory_clear : s.clear.2.directory = s.directory :=
  (clear_induction (P := fun _ => True) trivial fun _ _ _ _ _ _ _ _ _ => trivial).1

theorem load_save (h : (s.save key a).1 = .ok ())
    (hclock : a.recorded.seconds < Instant.secondsBound) :
    (s.save key a).2.load key = .ok (some a) := by
  rw [save] at h ⊢
  split at h
  · cases h
  · rename_i disk hdirectories
    split at h
    · cases h
    · rename_i temporary made htemporary
      obtain ⟨l, -, hlocation, -⟩ := FileSystem.createTemporary_eq_ok htemporary
      exact load_persist (by simp [hlocation]) h hclock

theorem mk_save (s : DirectoryStore) (key : String) (a : Artifact) :
    ⟨s.directory, (s.save key a).2.disk⟩ = (s.save key a).2 := by
  have hdirectory : (s.save key a).2.directory = s.directory := directory_save
  rw [← hdirectory]

end DirectoryStore

end LayeredTags
