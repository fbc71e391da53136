import LayeredTags.Proofs.Directory.Absent
import LayeredTags.Proofs.Store.Mirror
import Mathlib.Data.List.Induction

/-!
# The store in a directory and the store in memory agree

* `StoreCall`, `answers`: calls of a store, and what they give one after the other.
* `Stands`: an artifact has been stored under a key and has not been dropped since;
  `MemoryStore.get?_afterCalls_iff` says that these are the artifacts in memory.
* `DirectoryStore.Represents.perform`: a call has the same answer on a directory and on the map that
  it stands for, and the directory goes on standing for the map.
* `DirectoryStore.agrees_iff`: a directory without artifact files agrees with the store in memory on
  all calls if and only if it can be made and the paths of its files can be followed.
* `DirectoryStore.isVacant_of_absent`: a directory that is absent at first is without artifact
  files.
* `DirectoryStore.load_clear_of_unnamed`: behind the empty path clearing leaves the artifacts there.
-/

namespace LayeredTags

/-! ## Calls -/

/-- A call of a store. -/
inductive StoreCall where
  | load (key : String)
  | save (key : String) (a : Artifact)
  | remove (key : String)
  | clear
  deriving DecidableEq, Repr

namespace StoreCall

def silent {σ : Type} (result : Except StoreError Unit × σ) :
    Except StoreError (Option Artifact) × σ :=
  (result.1.map fun _ => none, result.2)

def perform {σ : Type} [ArtifactStore σ] (s : σ) :
    StoreCall → Except StoreError (Option Artifact) × σ
  | load key => (ArtifactStore.load s key, s)
  | save key a => silent (ArtifactStore.save s key a)
  | remove key => silent (ArtifactStore.remove s key)
  | clear => silent (ArtifactStore.clear s)

/-- The key belongs to a list of paths, and the time of an artifact to be stored is not before 1970
and one that a clock can represent. -/
def IsProper : StoreCall → Prop
  | load key | remove key => ∃ identity, key = cacheKey identity
  | save key a => (∃ identity, key = cacheKey identity) ∧
    0 ≤ a.recorded.sinceEpoch ∧ a.recorded.seconds < Instant.secondsBound
  | clear => True

/-- What was under the key is not there behind the call. -/
def Drops (key : String) : StoreCall → Prop
  | load _ => False
  | save k _ | remove k => k = key
  | clear => True

end StoreCall

variable {σ : Type} [ArtifactStore σ] {calls : List StoreCall} {key : String} {a : Artifact}

def answers (s : σ) : List StoreCall → List (Except StoreError (Option Artifact))
  | [] => []
  | call :: rest => (call.perform s).1 :: answers (call.perform s).2 rest

def afterCalls (s : σ) (calls : List StoreCall) : σ :=
  calls.foldl (fun s call => (call.perform s).2) s

/-- The artifact has been stored under the key and has not been dropped since. -/
def Stands (calls : List StoreCall) (key : String) (a : Artifact) : Prop :=
  ∃ before later, calls = before ++ .save key a :: later ∧ ∀ call ∈ later, ¬ call.Drops key

theorem not_stands_nil : ¬ Stands [] key a := by
  rintro ⟨before, later, h, -⟩
  simp at h

theorem stands_concat_iff {call : StoreCall} : Stands (calls ++ [call]) key a ↔
    call = .save key a ∨ ¬ call.Drops key ∧ Stands calls key a := by
  constructor
  · rintro ⟨before, later, h, hkept⟩
    cases later using List.reverseRecOn with
    | nil =>
      obtain ⟨-, hcall⟩ := List.append_inj' h rfl
      exact .inl (List.cons.inj hcall).1
    | append_singleton later last =>
      rw [← List.cons_append, ← List.append_assoc] at h
      obtain ⟨hcalls, hlast⟩ := List.append_inj' h rfl
      obtain rfl := (List.cons.inj hlast).1
      exact .inr ⟨hkept call (by simp), before, later, hcalls,
        fun c hc => hkept c (List.mem_append_left _ hc)⟩
  · rintro (rfl | ⟨hcall, before, later, rfl, hkept⟩)
    · exact ⟨calls, [], rfl, nofun⟩
    · refine ⟨before, later ++ [call], by simp, fun c hc => ?_⟩
      rcases List.mem_append.mp hc with hc | hc
      · exact hkept c hc
      · exact List.mem_singleton.mp hc ▸ hcall

/-! ## In memory -/

namespace MemoryStore

theorem get?_perform_iff {m : MemoryStore} {call : StoreCall} :
    (call.perform m).2.get? key = some a ↔
      call = .save key a ∨ ¬ call.Drops key ∧ m.get? key = some a := by
  cases call with
  | load k => simp [StoreCall.perform, StoreCall.Drops]
  | save k b =>
    show (m.insert k b).get? key = some a ↔ _
    rw [get?_insert]
    by_cases hk : key = k
    · simp [StoreCall.Drops, hk]
    · simp [StoreCall.Drops, hk, Ne.symm hk]
  | remove k =>
    show (m.erase k).get? key = some a ↔ _
    rw [get?_erase]
    by_cases hk : key = k
    · simp [StoreCall.Drops, hk]
    · simp [StoreCall.Drops, hk, Ne.symm hk]
  | clear =>
    show empty.get? key = some a ↔ _
    simp [StoreCall.Drops, get?_empty]

theorem get?_afterCalls_iff :
    (afterCalls empty calls).get? key = some a ↔ Stands calls key a := by
  induction calls using List.reverseRecOn with
  | nil => exact ⟨nofun, fun h => absurd h not_stands_nil⟩
  | append_singleton calls call ih =>
    rw [stands_concat_iff, ← ih, afterCalls, List.foldl_concat]
    exact get?_perform_iff

end MemoryStore

/-! ## In a directory -/

namespace DirectoryStore

open FileSystem (checkPath holdsNul pathLimit)

variable {s : DirectoryStore} {l : Location} {m : MemoryStore}

theorem Represents.perform (h : s.Represents l m.get?) {call : StoreCall}
    (hcall : call.IsProper) : (call.perform s).1 = (call.perform m).1 ∧
      Represents (call.perform s).2 l (call.perform m).2.get? := by
  have hsilent : ∀ {result : Except StoreError Unit × DirectoryStore} {entries : Entries},
      result.1 = .ok () ∧ Represents result.2 l entries →
        (StoreCall.silent result).1 = .ok none ∧
          Represents (StoreCall.silent result).2 l entries := by
    rintro ⟨_, changed⟩ entries ⟨rfl, hchanged⟩
    exact ⟨rfl, hchanged⟩
  cases call with
  | load key =>
    obtain ⟨identity, rfl⟩ := hcall
    refine ⟨?_, h⟩
    show ArtifactStore.load s _ = Except.ok (m.get? _)
    exact h.load_eq_ok identity
  | save key a =>
    obtain ⟨⟨identity, rfl⟩, htime, hclock⟩ := hcall
    show _ ∧ Represents _ l (m.insert (cacheKey identity) a).get?
    rw [MemoryStore.get?_insert_eq_update]
    exact hsilent (h.save identity htime hclock)
  | remove key =>
    obtain ⟨identity, rfl⟩ := hcall
    show _ ∧ Represents _ l (m.erase (cacheKey identity)).get?
    rw [MemoryStore.get?_erase_eq_update]
    exact hsilent (h.remove identity)
  | clear => exact hsilent h.clear

theorem Represents.afterCalls (h : s.Represents l m.get?)
    (hcalls : ∀ call ∈ calls, call.IsProper) :
    Represents (afterCalls s calls) l (afterCalls m calls).get? := by
  induction calls generalizing s m with
  | nil => exact h
  | cons call rest ih =>
    obtain ⟨hcall, hrest⟩ := List.forall_mem_cons.mp hcalls
    exact ih (h.perform hcall).2 hrest

theorem Represents.answers_eq (h : s.Represents l m.get?)
    (hcalls : ∀ call ∈ calls, call.IsProper) : answers s calls = answers m calls := by
  induction calls generalizing s m with
  | nil => rfl
  | cons call rest ih =>
    obtain ⟨hcall, hrest⟩ := List.forall_mem_cons.mp hcalls
    obtain ⟨hanswer, hafter⟩ := h.perform hcall
    rw [answers, answers, hanswer, ih hafter hrest]

theorem ok_of_save (h : (s.save key a).1 = .ok ()) :
    (s.disk.createDirectories s.directory).1 = .ok () ∧ checkPath (s.path key) = .ok () := by
  unfold save at h
  split at h
  · cases h
  · rename_i disk hmade
    split at h
    · cases h
    · unfold persist at h
      split at h
      · cases h
      · dsimp only at h
        split at h
        · rename_i hmoved
          obtain ⟨target, _, hlocate, -⟩ := FileSystem.rename_eq_ok hmoved
          exact ⟨by rw [hmade],
            FileSystem.checkPath_of_locateEntry (FileSystem.locateEntry_of_locate hlocate)⟩
        · cases h

theorem checkPath_path (hnamed : s.directory.text ≠ "") (hnul : holdsNul s.directory = false)
    (hshort : s.directory.text.utf8ByteSize + 85 ≤ pathLimit) (identity : List Path) :
    checkPath (s.path (cacheKey identity)) = .ok () := by
  have hname := utf8ByteSize_artifactName_le identity
  have hnone : '\x00' ∉ (artifactName (cacheKey identity)).toList :=
    notMem_artifactName (by decide) (by decide) identity
  have hdir : '\x00' ∉ s.directory.text.toList := by simpa [holdsNul] using hnul
  obtain ⟨between, hbetween, htext⟩ :=
    Path.exists_text_join s.directory (isPlain_artifactName identity).noSlash
  have hsmall : between.utf8ByteSize ≤ 1 ∧ '\x00' ∉ between.toList := by
    rcases hbetween with rfl | rfl <;> decide
  rw [path_eq_join, FileSystem.checkPath_eq_ok_iff, holdsNul, htext]
  refine ⟨?_, ?_, ?_⟩
  · simp [String.toList_append, hdir, hsmall.2, hnone]
  · simp [hnamed]
  · rw [String.utf8ByteSize_append, String.utf8ByteSize_append]
    omega

/-- Once the directory has been made, nothing in it has the extension of artifact files. -/
def IsVacant (s : DirectoryStore) : Prop :=
  ∀ names, (s.disk.createDirectories s.directory).2.list s.directory = .ok names →
    artifactNames names = []

theorem isVacant_of_absent (htree : s.disk.IsTree)
    (habsent : s.disk.get? (s.disk.destination s.directory) = none)
    (hup : .up ∉ s.directory.components) : s.IsVacant := by
  intro names hlist
  obtain ⟨l, hlocate, hlist⟩ := exists_of_bind_eq_ok hlist
  obtain ⟨here, hpass, hnames⟩ := exists_of_bind_eq_ok hlist
  obtain ⟨-, rfl⟩ := FileSystem.passThrough_eq_ok_iff.mp hpass
  have hl := FileSystem.eq_destination_of_locate hlocate
  rw [(s.disk.grown_createDirectories s.directory).destination] at hl
  rw [← Except.ok.inj hnames, hl, List.eq_nil_iff_forall_not_mem.mpr fun name hname =>
    FileSystem.mem_namesIn_iff.mp hname
      (FileSystem.get?_child_createDirectories htree habsent hup name)]
  rfl

/-- A directory without artifact files that can be made stands for the empty map. -/
theorem IsVacant.exists_represents (hvacant : s.IsVacant) (hnamed : s.directory.text ≠ "")
    (hmade : (s.disk.createDirectories s.directory).1 = .ok ())
    (hpassable : ∀ identity, checkPath (s.path (cacheKey identity)) = .ok ()) :
    ∃ l, s.Represents l MemoryStore.empty.get? := by
  set disk := (s.disk.createDirectories s.directory).2 with hdisk
  obtain ⟨l, hleads⟩ := FileSystem.leads_of_createDirectories hnamed
    (show s.disk.createDirectories s.directory = (.ok (), disk) from Prod.ext hmade rfl)
  have hempty := hvacant _ hleads.list_eq_ok
  have hnone : ∀ name, disk.get? (l ++ [name]) ≠ none →
      Path.extension? name ≠ some artifactExtension := by
    intro name hthere hextension
    have hmem : name ∈ artifactNames (disk.namesIn l) :=
      List.mem_filter.mpr ⟨FileSystem.mem_namesIn_iff.mpr hthere, decide_eq_true hextension⟩
    rw [hempty] at hmem
    cases hmem
  refine ⟨l, .awaits ⟨hmade, ?_⟩⟩
  exact
    { leads := hleads
      passable := hpassable
      proper := fun key hkey => absurd rfl hkey
      shows := fun identity => .inl
        ⟨not_not.mp fun hthere => hnone _ hthere (extension?_artifactName identity), rfl⟩
      only := fun name hthere hextension => absurd hextension (hnone name hthere)
      nodup := hempty ▸ List.nodup_nil }

theorem save_eq_ok_of_answers
    (h : answers s [.save key a] = answers MemoryStore.empty [.save key a]) :
    (s.save key a).1 = .ok () := by
  have hsilent := (List.cons.inj h).1
  change (s.save key a).1.map _ = .ok none at hsilent
  cases hresult : (s.save key a).1 with
  | error e =>
    rw [hresult] at hsilent
    cases hsilent
  | ok _ => rfl

def blank : Artifact := ⟨[], "", ⟨0⟩, [], []⟩

theorem isProper_save_blank (identity : List Path) :
    StoreCall.IsProper (.save (cacheKey identity) blank) :=
  ⟨⟨identity, rfl⟩, by decide, by decide⟩

/-- **The two stores agree.** Let the path of a directory not be empty, and let nothing in it have
the extension of artifact files once it has been made. On every sequence of calls with keys of lists
of paths and times from 1970 on that a clock can represent it gives what the store in memory gives,
and an artifact is loaded exactly if it stands under the key, if and only if the directory can be
made and the path of every file in it is one that can be followed. -/
theorem agrees_iff (s : DirectoryStore) (hnamed : s.directory.text ≠ "") (hvacant : s.IsVacant) :
    (∀ calls : List StoreCall, (∀ call ∈ calls, call.IsProper) →
      answers s calls = answers MemoryStore.empty calls ∧
      ∀ identity, ∃ found,
        ArtifactStore.load (afterCalls s calls) (cacheKey identity) = .ok found ∧
        ∀ a, found = some a ↔ Stands calls (cacheKey identity) a) ↔
    (s.disk.createDirectories s.directory).1 = .ok () ∧
      ∀ identity, checkPath (s.path (cacheKey identity)) = .ok () := by
  constructor
  · intro h
    have hsave : ∀ identity, (s.save (cacheKey identity) blank).1 = .ok () := fun identity =>
      save_eq_ok_of_answers (h _ (List.forall_mem_singleton.mpr (isProper_save_blank identity))).1
    exact ⟨(ok_of_save (hsave [])).1, fun identity => (ok_of_save (hsave identity)).2⟩
  · rintro ⟨hmade, hpassable⟩ calls hcalls
    obtain ⟨l, hrepresents⟩ := hvacant.exists_represents hnamed hmade hpassable
    refine ⟨hrepresents.answers_eq hcalls, fun identity => ?_⟩
    exact ⟨_, (hrepresents.afterCalls hcalls).load_eq_ok identity,
      fun a => MemoryStore.get?_afterCalls_iff⟩

/-- On a disk with nothing but its working directory, a directory that is absent agrees with the
store in memory. -/
theorem agrees_onEmptyDisk :
    (⟨⟨"cache"⟩, .empty⟩ : DirectoryStore).directory.text ≠ "" ∧
      (⟨⟨"cache"⟩, .empty⟩ : DirectoryStore).IsVacant ∧
      ∀ calls : List StoreCall, (∀ call ∈ calls, call.IsProper) →
        answers (⟨⟨"cache"⟩, .empty⟩ : DirectoryStore) calls = answers MemoryStore.empty calls := by
  have hnamed : (⟨⟨"cache"⟩, .empty⟩ : DirectoryStore).directory.text ≠ "" := by decide
  have hvacant : (⟨⟨"cache"⟩, .empty⟩ : DirectoryStore).IsVacant :=
    isVacant_of_absent FileSystem.isTree_empty (by rfl) (by decide)
  have hmade : (FileSystem.empty.createDirectories ⟨"cache"⟩).1 = .ok () := by rfl
  exact ⟨hnamed, hvacant, fun calls hcalls =>
    ((agrees_iff ⟨⟨"cache"⟩, .empty⟩ hnamed hvacant).mpr
      ⟨hmade, checkPath_path hnamed (by decide) (by decide)⟩ calls hcalls).1⟩

/-- The two stores do not agree on every directory that does not exist: below a file it cannot be
made, and nothing can be stored. -/
theorem not_forall_agrees : ¬ ∀ (s : DirectoryStore) (calls : List StoreCall),
    (∀ entry, s.disk.stat s.directory ≠ .ok entry) → (∀ call ∈ calls, call.IsProper) →
      answers s calls = answers MemoryStore.empty calls := by
  intro h
  let disk : FileSystem := FileSystem.empty.put ["work", "c"] (.file [] ⟨0⟩)
  have hstat : disk.stat ⟨"c/d"⟩ = .error .notADirectory := by rfl
  have hmade : (disk.createDirectories ⟨"c/d"⟩).1 = .error .notADirectory := by rfl
  have hagrees := h ⟨⟨"c/d"⟩, disk⟩ [.save (cacheKey []) blank] (by simp [hstat])
    (List.forall_mem_singleton.mpr (isProper_save_blank []))
  have hstored := (ok_of_save (save_eq_ok_of_answers hagrees)).1
  rw [hmade] at hstored
  cases hstored

/-- Clearing finds no directory behind the empty path, although artifacts are stored there. -/
theorem clear_of_unnamed (h : s.directory.text = "") : s.clear = (.ok (), s) := by
  have hcheck : checkPath s.directory = .error .notFound := by
    rw [checkPath, if_pos h, if_neg (by simp [holdsNul, h])]
  have hlocate : s.disk.locateEntry s.directory = .error .notFound := by
    rw [FileSystem.locateEntry, hcheck]
    rfl
  exact clear_of_stat (FileSystem.stat_of_locate_error
    (FileSystem.locate_of_locateEntry_error hlocate))

/-- Behind the empty path an artifact that has been stored is loaded even if the store has been
cleared since. -/
theorem load_clear_of_unnamed (h : s.directory.text = "") (hsave : (s.save key a).1 = .ok ())
    (hclock : a.recorded.seconds < Instant.secondsBound) :
    (s.save key a).2.clear.2.load key = .ok (some a) := by
  rw [clear_of_unnamed (directory_save.symm ▸ h)]
  exact load_save hsave hclock

end DirectoryStore

end LayeredTags
