import LayeredTags.Cache.Key
import LayeredTags.Proofs.Directory.Changes
import LayeredTags.Proofs.Store.Directory
import LayeredTags.Proofs.Store.Entries
import Mathlib.Data.String.Basic

/-!
# A directory as a map

* `DirectoryStore.isPlain_artifactName`, `extension?_artifactName`: the names of artifact files.
* `DirectoryStore.Mirrors`: the files of a directory are the texts of a map from keys to artifacts.
  Loading reads the map, and storing, removing and clearing update it.
* `DirectoryStore.Awaits`: the directory can be made and will have no artifacts; until it is made it
  answers as if it were.
* `DirectoryStore.Represents`: one of the two, which every operation keeps.
-/

namespace LayeredTags

open FileSystem (IsPlain checkPath)

/-! ## Keys -/

theorem mem_hexDigits_of_mem_toDigits {c : Char} (n : Nat) (h : c ∈ Nat.toDigits 16 n) :
    c ∈ "0123456789abcdef".toList := by
  have hdigit : ∀ d < 16, Nat.digitChar d ∈ "0123456789abcdef".toList := by decide
  induction n using Nat.strongRecOn with
  | ind n ih =>
    by_cases hsmall : n < 16
    · rw [Nat.toDigits_of_lt_base hsmall, List.mem_singleton] at h
      exact h ▸ hdigit n hsmall
    · rw [Nat.toDigits_of_base_le (by decide) (by omega), List.mem_append,
        List.mem_singleton] at h
      rcases h with h | rfl
      · exact ih (n / 16) (by omega) h
      · exact hdigit (n % 16) (by omega)

theorem mem_hexDigits_of_mem_cacheKey {c : Char} {identity : List Path}
    (h : c ∈ (cacheKey identity).toList) : c ∈ "0123456789abcdef".toList := by
  rw [cacheKey, hexWord, String.toList_ofList, List.mem_append, List.mem_replicate] at h
  rcases h with ⟨-, rfl⟩ | h
  · decide
  · exact mem_hexDigits_of_mem_toDigits _ h

theorem length_cacheKey (identity : List Path) : (cacheKey identity).length = 16 := by
  have hword := (hashBytes hashOffset (identityBytes identity)).toNat_lt
  have hdigits := (Nat.length_toDigits_le_iff (b := 16) (k := 16) (by decide) (by decide)).mpr
    (Nat.lt_of_lt_of_le hword (by decide))
  rw [cacheKey, hexWord, String.length_ofList, List.length_append, List.length_replicate]
  exact Nat.sub_add_cancel hdigits

namespace DirectoryStore

def artifactName (key : String) : String :=
  key ++ "." ++ artifactExtension

theorem path_eq_join (s : DirectoryStore) (key : String) :
    s.path key = s.directory.join (artifactName key) := rfl

theorem toList_artifactName (key : String) :
    (artifactName key).toList = key.toList ++ ".json".toList := by
  rw [artifactName, String.toList_append, String.toList_append, List.append_assoc]
  rfl

theorem artifactName_injective : Function.Injective artifactName := by
  intro key key' h
  have htexts := congrArg String.toList h
  rw [toList_artifactName, toList_artifactName] at htexts
  exact String.toList_inj.mp (List.append_cancel_right htexts)

theorem utf8Len_le (cs : List Char) : String.utf8Len cs ≤ 4 * cs.length := by
  induction cs with
  | nil => exact Nat.le_refl 0
  | cons c cs ih =>
    have hc := c.utf8Size_le_four
    rw [String.utf8Len_cons, List.length_cons]
    omega

theorem length_artifactName (identity : List Path) :
    (artifactName (cacheKey identity)).toList.length = 21 := by
  rw [toList_artifactName, List.length_append, String.length_toList, length_cacheKey]
  rfl

theorem utf8ByteSize_artifactName_le (identity : List Path) :
    (artifactName (cacheKey identity)).utf8ByteSize ≤ 84 := by
  have hbytes := utf8Len_le (artifactName (cacheKey identity)).toList
  rwa [length_artifactName, ← String.utf8ByteSize_ofList, String.ofList_toList] at hbytes

theorem notMem_artifactName {c : Char} (hkey : c ∉ "0123456789abcdef".toList)
    (hextension : c ∉ ".json".toList) (identity : List Path) :
    c ∉ (artifactName (cacheKey identity)).toList := by
  rw [toList_artifactName, List.mem_append, not_or]
  exact ⟨fun h => hkey (mem_hexDigits_of_mem_cacheKey h), hextension⟩

theorem isPlain_artifactName (identity : List Path) :
    IsPlain (artifactName (cacheKey identity)) := by
  have hne : ∀ name : String, name.toList.length < 21 →
      artifactName (cacheKey identity) ≠ name := by
    rintro name hname rfl
    rw [length_artifactName] at hname
    omega
  exact
    { ne_empty := hne "" (by decide)
      noSlash := notMem_artifactName (by decide) (by decide) identity
      ne_dot := hne "." (by decide)
      ne_dots := hne ".." (by decide)
      short := Nat.le_trans (utf8ByteSize_artifactName_le identity) (by decide) }

theorem extension?_artifactName (identity : List Path) :
    Path.extension? (artifactName (cacheKey identity)) = some artifactExtension := by
  have hkey : (cacheKey identity).toList.reverse ≠ [] := by
    rw [ne_eq, List.reverse_eq_nil_iff, ← List.length_eq_zero_iff, String.length_toList,
      length_cacheKey]
    decide
  obtain ⟨last, before, hreverse⟩ := List.exists_cons_of_ne_nil hkey
  have htext : (artifactName (cacheKey identity)).toList.reverse =
      'n' :: 'o' :: 's' :: 'j' :: '.' :: last :: before := by
    rw [toList_artifactName, List.reverse_append, hreverse]
    rfl
  rw [Path.extension?, htext]
  rfl

/-! ## Operations, by what the disk gives -/

open FileSystem

variable {s : DirectoryStore} {l : Location} {entries : Entries} {a : Artifact}

theorem load_of_stat {key : String} (h : s.disk.stat (s.path key) = .error .notFound) :
    s.load key = .ok none := by
  rw [load_of_error (read_of_stat_error h), if_pos rfl]

theorem remove_of_stat {key : String} (h : s.disk.stat (s.path key) = .error .notFound) :
    s.remove key = (.ok (), s) := by
  -- The equation of the definition would split into one case for each error of the disk.
  delta remove
  rw [removeFile_of_stat h]

theorem remove_of_removeFile {key : String} {disk : FileSystem}
    (h : s.disk.removeFile (s.path key) = .ok disk) :
    s.remove key = (.ok (), ⟨s.directory, disk⟩) := by
  delta remove
  rw [h]

def artifactNames (names : List String) : List String :=
  names.filter fun n => Path.extension? n = some artifactExtension

theorem clear_of_list {names : List String} (h : s.disk.list s.directory = .ok names) :
    s.clear = s.removeEach (artifactNames names) := by
  delta clear
  rw [h]
  rfl

theorem clear_of_stat (h : s.disk.stat s.directory = .error .notFound) :
    s.clear = (.ok (), s) := by
  delta clear
  rw [list_of_stat h]

theorem removeEach_cons {name : String} {rest : List String} {disk : FileSystem}
    (h : s.disk.removeFile (s.directory.join name) = .ok disk) : s.removeEach (name :: rest) =
      (⟨s.directory, disk⟩ : DirectoryStore).removeEach rest := by
  rw [removeEach.eq_def]
  dsimp only
  rw [h]

theorem save_of_rename {key text : String} {disk : FileSystem}
    (h : s.disk.Leads s.directory l) (hwrite : a.write = .ok text)
    (hmoved : ((s.disk.put (l ++ [s.disk.freshName]) (.file [] s.disk.clock)).write
      (l ++ [s.disk.freshName]) (.ofString text)).rename (l ++ [s.disk.freshName]) (s.path key) =
        .ok disk) :
    s.save key a = (.ok (), ⟨s.directory, disk⟩) := by
  rw [path] at hmoved
  simp only [save, createDirectories_of_leads h, createTemporary_of_leads h, persist, hwrite,
    path, hmoved]

/-! ## A directory that is there -/

/-- There is nothing, or a file that reads as an artifact. -/
def Shows (entry : Option Entry) (found : Option Artifact) : Prop :=
  entry = none ∧ found = none ∨ ∃ content modified a,
    entry = some (.file content modified) ∧ found = some a ∧ Artifact.read content = .ok a

/-- The directory of the store is at a location, the files of its keys show the entries of a map,
and nothing else in it has the extension of artifact files. -/
structure Mirrors (s : DirectoryStore) (l : Location) (entries : Entries) : Prop where
  leads : s.disk.Leads s.directory l
  passable : ∀ identity, checkPath (s.path (cacheKey identity)) = .ok ()
  proper : ∀ key, entries key ≠ none → ∃ identity, key = cacheKey identity
  shows : ∀ identity, Shows (s.disk.get? (l ++ [artifactName (cacheKey identity)]))
    (entries (cacheKey identity))
  only : ∀ name, s.disk.get? (l ++ [name]) ≠ none →
    Path.extension? name = some artifactExtension →
      ∃ identity, name = artifactName (cacheKey identity)
  nodup : (artifactNames (s.disk.namesIn l)).Nodup

namespace Mirrors

theorem locateEntry_path (h : Mirrors s l entries) (identity : List Path) :
    s.disk.locateEntry (s.path (cacheKey identity)) =
      .ok (l ++ [artifactName (cacheKey identity)]) :=
  h.leads.locateEntry_join (isPlain_artifactName identity) (h.passable identity)

theorem locate_path (h : Mirrors s l entries) (identity : List Path) :
    s.disk.locate (s.path (cacheKey identity)) =
      .ok (l ++ [artifactName (cacheKey identity)]) := by
  rw [locate_of_not_endsInSlash (s.endsInSlash_path _), h.locateEntry_path]

theorem get?_ne_directory (h : Mirrors s l entries) (identity : List Path) :
    s.disk.get? (l ++ [artifactName (cacheKey identity)]) ≠ some .directory := by
  obtain ⟨hnone, -⟩ | ⟨content, modified, a, hfile, -⟩ := h.shows identity
  · simp [hnone]
  · simp [hfile]

theorem load_eq_ok (h : Mirrors s l entries) (identity : List Path) :
    s.load (cacheKey identity) = .ok (entries (cacheKey identity)) := by
  obtain ⟨hnone, hfound⟩ | ⟨content, modified, a, hfile, hfound, hread⟩ := h.shows identity
  · rw [hfound]
    exact load_of_stat (stat_of_locate_none (h.locate_path identity) hnone)
  · rw [hfound, load_of_read (read_of_locateEntry (h.locateEntry_path identity) hfile
      (s.endsInSlash_path _)), hread]
    rfl

theorem update (h : Mirrors s l entries) {identity : List Path} {disk : FileSystem}
    {entry : Option Entry} {found : Option Artifact} (hkeeps : KeepsDirectories s.disk disk)
    (hget : ∀ name, disk.get? (l ++ [name]) =
      if name = artifactName (cacheKey identity) then entry else s.disk.get? (l ++ [name]))
    (hshows : Shows entry found) (hnodup : (artifactNames (disk.namesIn l)).Nodup) :
    Mirrors ⟨s.directory, disk⟩ l (Function.update entries (cacheKey identity) found) := by
  refine ⟨hkeeps.leads h.leads, h.passable, fun key hkey => ?_, fun other => ?_,
    fun name hthere hextension => ?_, hnodup⟩
  · rw [Function.update_apply] at hkey
    split at hkey
    · exact ⟨identity, by assumption⟩
    · exact h.proper key hkey
  · rw [hget, Function.update_apply]
    by_cases hkey : cacheKey other = cacheKey identity
    · rw [if_pos hkey, if_pos (congrArg artifactName hkey)]
      exact hshows
    · rw [if_neg hkey, if_neg fun hname => hkey (artifactName_injective hname)]
      exact h.shows other
  · rw [hget] at hthere
    split at hthere
    · exact ⟨identity, by assumption⟩
    · exact h.only name hthere hextension

theorem erase (h : Mirrors s l entries) (identity : List Path) :
    Mirrors ⟨s.directory, s.disk.erase (l ++ [artifactName (cacheKey identity)])⟩ l
      (Function.update entries (cacheKey identity) none) := by
  refine h.update (.erase (h.get?_ne_directory _)) (fun name => ?_) (.inl ⟨rfl, rfl⟩)
    (nodup_namesIn_erase h.nodup)
  rw [get?_erase (by simp)]
  simp

theorem remove (h : Mirrors s l entries) (identity : List Path) :
    (s.remove (cacheKey identity)).1 = .ok () ∧
      Mirrors (s.remove (cacheKey identity)).2 l
        (Function.update entries (cacheKey identity) none) := by
  obtain ⟨hnone, hfound⟩ | ⟨content, modified, a, hfile, -⟩ := h.shows identity
  · rw [remove_of_stat (stat_of_locate_none (h.locate_path identity) hnone), ← hfound,
      Function.update_eq_self]
    exact ⟨rfl, h⟩
  · rw [remove_of_removeFile (removeFile_of_file (h.locate_path identity) hfile)]
    exact ⟨rfl, h.erase identity⟩

theorem removeEach (h : Mirrors s l entries) {names : List String} (hnodup : names.Nodup)
    (hthere : ∀ name ∈ names, (∃ identity, name = artifactName (cacheKey identity)) ∧
      s.disk.get? (l ++ [name]) ≠ none) :
    (s.removeEach names).1 = .ok () ∧ Mirrors (s.removeEach names).2 l
      (fun key => if artifactName key ∈ names then none else entries key) := by
  induction names generalizing s entries with
  | nil => simpa using ⟨rfl, h⟩
  | cons name rest ih =>
    -- Behind the first file the directory mirrors the map without its key, and the other names are
    -- still there because they differ from the first.
    obtain ⟨hname, hrest⟩ := List.nodup_cons.mp hnodup
    obtain ⟨⟨identity, rfl⟩, hfirst⟩ := hthere name (.head _)
    have hremoved : s.disk.removeFile (s.directory.join (artifactName (cacheKey identity))) =
        .ok (s.disk.erase (l ++ [artifactName (cacheKey identity)])) := by
      obtain ⟨hnone, -⟩ | ⟨content, modified, a, hfile, -⟩ := h.shows identity
      · exact absurd hnone hfirst
      · exact removeFile_of_file (h.locate_path identity) hfile
    have hstill : ∀ name ∈ rest, (∃ identity, name = artifactName (cacheKey identity)) ∧
        (s.disk.erase (l ++ [artifactName (cacheKey identity)])).get? (l ++ [name]) ≠ none := by
      intro name hmem
      obtain ⟨hkey, hfile⟩ := hthere name (.tail _ hmem)
      refine ⟨hkey, ?_⟩
      rw [get?_erase (by simp), if_neg]
      · exact hfile
      · intro hsame
        obtain rfl : name = artifactName (cacheKey identity) := by simpa using hsame
        exact hname hmem
    have hrun := ih (h.erase identity) hrest hstill
    have hmap : (fun key => if artifactName key ∈ rest then none
        else Function.update entries (cacheKey identity) none key) =
        fun key => if artifactName key ∈ artifactName (cacheKey identity) :: rest then none
          else entries key := by
      funext key
      rw [Function.update_apply]
      by_cases hkey : key = cacheKey identity
      · simp [hkey]
      · have hne : artifactName key ≠ artifactName (cacheKey identity) :=
          fun hname => hkey (artifactName_injective hname)
        simp [hkey, hne]
    rw [removeEach_cons hremoved]
    exact ⟨hrun.1, hmap ▸ hrun.2⟩

theorem clear (h : Mirrors s l entries) :
    s.clear.1 = .ok () ∧ Mirrors s.clear.2 l (fun _ => none) := by
  set names := artifactNames (s.disk.namesIn l) with hnames
  have hmem : ∀ name, name ∈ names ↔ s.disk.get? (l ++ [name]) ≠ none ∧
      Path.extension? name = some artifactExtension := by
    intro name
    rw [hnames, artifactNames, List.mem_filter, mem_namesIn_iff, decide_eq_true_iff]
  have hrun := h.removeEach h.nodup fun name hname =>
    have hfile := (hmem name).mp hname
    ⟨h.only name hfile.1 hfile.2, hfile.1⟩
  have hmap : (fun key => if artifactName key ∈ names then none else entries key) =
      fun _ => none := by
    -- A key that is left would be proper, and its file would be among those that were removed.
    funext key
    by_contra hleft
    split at hleft
    · exact hleft rfl
    · rename_i hout
      obtain ⟨identity, rfl⟩ := h.proper key hleft
      obtain ⟨-, hfound⟩ | ⟨content, modified, a, hfile, -⟩ := h.shows identity
      · exact hleft hfound
      · exact hout ((hmem _).mpr ⟨by simp [hfile], extension?_artifactName identity⟩)
  rw [clear_of_list h.leads.list_eq_ok]
  exact ⟨hrun.1, hmap ▸ hrun.2⟩

theorem save (h : Mirrors s l entries) (identity : List Path)
    (htime : 0 ≤ a.recorded.sinceEpoch) (hclock : a.recorded.seconds < Instant.secondsBound) :
    (s.save (cacheKey identity) a).1 = .ok () ∧ Mirrors (s.save (cacheKey identity) a).2 l
      (Function.update entries (cacheKey identity) (some a)) := by
  obtain ⟨text, hwrite⟩ := Artifact.exists_write (Int.not_lt.mpr htime)
  obtain ⟨disk, hmoved, hkeeps, hget, hnodup⟩ := exists_rename_written
    (s.disk.get?_freshName l) (checkPath_eq_ok_iff.mp (h.passable identity)).1
    (s.endsInSlash_path (cacheKey identity)) (h.locateEntry_path identity)
    (h.get?_ne_directory _) (.ofString text)
  have hshows : Shows (some (.file (.ofString text) s.disk.clock)) (some a) :=
    .inr ⟨_, _, a, rfl, rfl, Artifact.read_write hwrite hclock⟩
  rw [save_of_rename h.leads hwrite hmoved]
  refine ⟨rfl, h.update hkeeps (fun name => ?_) hshows (hnodup l _ h.nodup)⟩
  rw [hget _ (by simp)]
  simp

theorem get?_of_empty (h : Mirrors s l fun _ => none) (identity : List Path) :
    s.disk.get? (l ++ [artifactName (cacheKey identity)]) = none := by
  obtain ⟨hnone, -⟩ | ⟨_, _, _, -, hfound, -⟩ := h.shows identity
  · exact hnone
  · cases hfound

theorem extension?_of_empty (h : Mirrors s l fun _ => none) {name : String}
    (hthere : s.disk.get? (l ++ [name]) ≠ none) :
    Path.extension? name ≠ some artifactExtension := by
  intro hextension
  obtain ⟨identity, rfl⟩ := h.only name hthere hextension
  exact hthere (h.get?_of_empty identity)

end Mirrors

/-! ## A directory that can be made -/

/-- The directory can be made, and it will have no artifacts. -/
structure Awaits (s : DirectoryStore) (l : Location) : Prop where
  made : (s.disk.createDirectories s.directory).1 = .ok ()
  mirrors : Mirrors ⟨s.directory, (s.disk.createDirectories s.directory).2⟩ l fun _ => none

namespace Awaits

theorem stat_path (h : s.Awaits l) (identity : List Path) :
    s.disk.stat (s.path (cacheKey identity)) = .error .notFound := by
  have hgrown := s.disk.grown_createDirectories s.directory
  rcases hgrown.locateEntry (h.mirrors.locateEntry_path identity) with hlocate | hlocate
  · have hnone := hgrown.get?_of_none (h.mirrors.get?_of_empty identity)
    exact stat_of_locate_none (locate_of_none hlocate hnone) hnone
  · exact stat_of_locate_error (locate_of_locateEntry_error hlocate)

theorem clear_eq (h : s.Awaits l) : s.clear = (.ok (), s) := by
  -- The directory may be there before it is made; then it has no artifact files now either.
  have hgrown := s.disk.grown_createDirectories s.directory
  rcases hgrown.locateEntry h.mirrors.leads.locateEntry with hlocate | hlocate
  · rcases hgrown.get?_of_directory h.mirrors.leads.isDirectory with hdirectory | hnone
    · have hnames : artifactNames (s.disk.namesIn l) = [] := by
        refine List.filter_eq_nil_iff.mpr fun name hname => ?_
        rw [decide_eq_true_iff]
        exact h.mirrors.extension?_of_empty
          (mt hgrown.get?_of_none (mem_namesIn_iff.mp hname))
      rw [clear_of_list (Leads.list_eq_ok ⟨hlocate, hdirectory⟩), hnames]
      rfl
    · exact clear_of_stat (stat_of_locate_none (locate_of_none hlocate hnone) hnone)
  · exact clear_of_stat (stat_of_locate_error (locate_of_locateEntry_error hlocate))

theorem save_eq (h : s.Awaits l) (key : String) (a : Artifact) : s.save key a =
    DirectoryStore.save ⟨s.directory, (s.disk.createDirectories s.directory).2⟩ key a := by
  have hmade : s.disk.createDirectories s.directory =
      (.ok (), (s.disk.createDirectories s.directory).2) := Prod.ext h.made rfl
  have hleads := createDirectories_of_leads h.mirrors.leads
  delta save
  rw [hmade, hleads]

end Awaits

/-- The directory stands for a map: it has not been made and the map is empty, or its files are
those of the map. -/
inductive Represents (s : DirectoryStore) (l : Location) : Entries → Prop
  | awaits (h : s.Awaits l) : Represents s l fun _ => none
  | mirrors {entries : Entries} (h : s.Mirrors l entries) : Represents s l entries

namespace Represents

theorem load_eq_ok (h : s.Represents l entries) (identity : List Path) :
    s.load (cacheKey identity) = .ok (entries (cacheKey identity)) := by
  cases h with
  | awaits h => exact load_of_stat (h.stat_path identity)
  | mirrors h => exact h.load_eq_ok identity

theorem save (h : s.Represents l entries) (identity : List Path)
    (htime : 0 ≤ a.recorded.sinceEpoch) (hclock : a.recorded.seconds < Instant.secondsBound) :
    (s.save (cacheKey identity) a).1 = .ok () ∧ Represents (s.save (cacheKey identity) a).2 l
      (Function.update entries (cacheKey identity) (some a)) := by
  cases h with
  | awaits h =>
    rw [h.save_eq]
    exact (h.mirrors.save identity htime hclock).imp_right .mirrors
  | mirrors h => exact (h.save identity htime hclock).imp_right .mirrors

theorem remove (h : s.Represents l entries) (identity : List Path) :
    (s.remove (cacheKey identity)).1 = .ok () ∧ Represents (s.remove (cacheKey identity)).2 l
      (Function.update entries (cacheKey identity) none) := by
  cases h with
  | awaits h =>
    rw [remove_of_stat (h.stat_path identity)]
    refine ⟨rfl, ?_⟩
    rw [Function.update_eq_self (cacheKey identity) fun _ => (none : Option Artifact)]
    exact .awaits h
  | mirrors h => exact (h.remove identity).imp_right .mirrors

theorem clear (h : s.Represents l entries) :
    s.clear.1 = .ok () ∧ Represents s.clear.2 l fun _ => none := by
  cases h with
  | awaits h =>
    rw [h.clear_eq]
    exact ⟨rfl, .awaits h⟩
  | mirrors h => exact h.clear.imp_right .mirrors

end Represents

end DirectoryStore

end LayeredTags
