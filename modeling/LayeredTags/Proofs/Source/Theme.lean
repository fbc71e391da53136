import LayeredTags.Proofs.Path
import LayeredTags.Source.Resolver

/-!
# Reading sources in theme directories

A source is read if its path starts with the components of a theme directory. The components behind
them are not looked at: with two dots, or with a slash in front if the directory is the empty path,
they leave the directory again.

* `Path.Leaves`: a path goes into a directory and leaves it again.
* `ThemeSettings.Covers`: the location of a path lies in a theme directory.
* `ThemeSettings.read_outside`: what reading says of a path that leads to a location outside of the
  theme directories.
-/

namespace LayeredTags

/-- The path starts with the components of the directory, and its further components leave it. -/
def Path.Leaves (path dir : Path) : Prop :=
  ∃ rest, path.components = dir.components ++ rest ∧ Component.leaves 0 rest = true

namespace FileSystem

variable {disk : FileSystem} {path dir : Path}

theorem destination_mono {rest : List Component}
    (h : path.components = dir.components ++ rest) (hstays : Component.leaves 0 rest = false) :
    disk.destination dir <+: disk.destination path := by
  have hinside : ∃ inner, rest.foldl Component.follow (disk.destination dir ++ []) =
      disk.destination dir ++ inner := Component.exists_foldl_follow hstays
  obtain ⟨inner, hinner⟩ := hinside
  refine ⟨inner, ?_⟩
  rw [List.append_nil] at hinner
  rw [← hinner, destination, destination, h, List.foldl_append]

theorem under_iff_leaves (houtside : ¬ disk.destination dir <+: disk.destination path) :
    path.Under dir ↔ path.Leaves dir := by
  constructor
  · rintro ⟨rest, hrest⟩
    cases hleaves : Component.leaves 0 rest with
    | true => exact ⟨rest, hrest.symm, hleaves⟩
    | false => exact absurd (destination_mono hrest.symm hleaves) houtside
  · rintro ⟨rest, hrest, -⟩
    exact ⟨rest, hrest.symm⟩

theorem readText_eq_ok_iff {text : String} :
    disk.readText path = .ok text ↔ ∃ content modified,
      disk.locate path = .ok (disk.destination path) ∧
        disk.get? (disk.destination path) = some (.file content modified) ∧
        content.text? = some text := by
  constructor
  · intro h
    obtain ⟨content, hread, h⟩ := exists_of_bind_eq_ok h
    obtain ⟨entry, hstat, hread⟩ := exists_of_bind_eq_ok hread
    obtain ⟨l, hlocate, hstat⟩ := exists_of_bind_eq_ok hstat
    have hl : l = disk.destination path := eq_destination_of_locate hlocate
    split at hstat
    · rename_i entry' hentry
      obtain rfl := Except.ok.inj hstat
      cases entry' with
      | directory => cases hread
      | file content' modified =>
        obtain rfl := Except.ok.inj hread
        split at h
        · obtain rfl := Except.ok.inj h
          exact ⟨content', modified, hl ▸ hlocate, hl ▸ hentry, ‹_›⟩
        · cases h
    · cases hstat
  · rintro ⟨content, modified, hlocate, hentry, htext⟩
    have hstat : disk.stat path = .ok (.file content modified) := by
      simp only [stat, hlocate, hentry, bind, Except.bind]
    have hread : disk.read path = .ok content := by
      rw [read, hstat]
      rfl
    simp only [readText, hread, htext, bind, Except.bind]

end FileSystem

namespace ThemeSettings

/-- The location of the path, with its dots resolved, lies in that of a theme directory. -/
def Covers (t : ThemeSettings) (disk : FileSystem) (path : Path) : Prop :=
  ∃ dir ∈ t.directories, disk.destination dir <+: disk.destination path

instance (t : ThemeSettings) (disk : FileSystem) (path : Path) : Decidable (t.Covers disk path) :=
  inferInstanceAs (Decidable (∃ dir ∈ t.directories, _))

variable {t : ThemeSettings} {disk : FileSystem} {path : Path}

theorem message_ne_outsideMessage (e : OsError) : e.message ≠ outsideMessage := by
  cases e <;> decide

theorem read_eq_outside_iff :
    t.read disk path = .error (.loadFailed path.text outsideMessage) ↔
      ∀ dir ∈ t.directories, ¬ path.Under dir := by
  rw [read]
  constructor
  · intro h
    split at h
    · split at h
      · cases h
      · cases h
      · exact absurd (SourceError.loadFailed.inj (Except.error.inj h)).2
          (message_ne_outsideMessage _)
    · rename_i hnone
      exact fun dir hdir hunder => hnone ⟨dir, hdir, hunder⟩
  · intro h
    rw [if_neg]
    rintro ⟨dir, hdir, hunder⟩
    exact h dir hdir hunder

theorem read_eq_ok_some_iff {text : String} :
    t.read disk path = .ok (some text) ↔
      (∃ dir ∈ t.directories, path.Under dir) ∧ disk.readText path = .ok text := by
  rw [read]
  constructor
  · intro h
    split at h
    · rename_i hunder
      split at h
      · rename_i text' htext
        obtain rfl := Option.some.inj (Except.ok.inj h)
        exact ⟨hunder, htext⟩
      · cases h
      · cases h
    · cases h
  · rintro ⟨hunder, htext⟩
    rw [if_pos hunder, htext]

/-- **Reading outside of the theme directories.** Of a path whose location lies in no theme
directory, reading says that it is outside unless the path enters a theme directory and leaves it
again. In that case the path is followed, and if it leads to a file, the text of that file is the
result. -/
theorem read_outside (houtside : ¬ t.Covers disk path) :
    (t.read disk path = .error (.loadFailed path.text outsideMessage) ↔
      ∀ dir ∈ t.directories, ¬ path.Leaves dir) ∧
    ∀ text, t.read disk path = .ok (some text) ↔
      (∃ dir ∈ t.directories, path.Leaves dir) ∧ ∃ content modified,
        disk.locate path = .ok (disk.destination path) ∧
          disk.get? (disk.destination path) = some (.file content modified) ∧
          content.text? = some text := by
  have hleaves : ∀ dir ∈ t.directories, path.Under dir ↔ path.Leaves dir := fun dir hdir =>
    FileSystem.under_iff_leaves fun hinside => houtside ⟨dir, hdir, hinside⟩
  constructor
  · rw [read_eq_outside_iff]
    exact forall₂_congr fun dir hdir => not_congr (hleaves dir hdir)
  · intro text
    have hsome : (∃ dir ∈ t.directories, path.Under dir) ↔ ∃ dir ∈ t.directories, path.Leaves dir :=
      exists_congr fun dir => and_congr_right (hleaves dir)
    rw [read_eq_ok_some_iff, hsome, FileSystem.readText_eq_ok_iff]

/-- A disk with a file in a theme directory and another file beside the directory. -/
def besideDisk : FileSystem where
  entries := [(["work"], .directory), (["work", "base"], .directory),
    (["work", "base", "page.tpl"], .file (Content.ofString "P") ⟨0⟩),
    (["work", "secret.tpl"], .file (Content.ofString "secret") ⟨0⟩)]
  here := ["work"]
  clock := ⟨0⟩

theorem read_outside_beside :
    ¬ Covers ⟨[⟨"base"⟩], "tpl"⟩ besideDisk ⟨"base/../secret.tpl"⟩ ∧
      read ⟨[⟨"base"⟩], "tpl"⟩ besideDisk ⟨"base/../secret.tpl"⟩ = .ok (some "secret") := by
  have houtside : ¬ Covers ⟨[⟨"base"⟩], "tpl"⟩ besideDisk ⟨"base/../secret.tpl"⟩ := by decide
  refine ⟨houtside, ((read_outside houtside).2 "secret").mpr ⟨⟨⟨"base"⟩, ?_, ?_⟩, ?_⟩⟩
  · exact List.mem_singleton.mpr rfl
  · exact ⟨[.up, .name "secret.tpl"], by decide, rfl⟩
  · exact ⟨Content.ofString "secret", ⟨0⟩, by decide, by decide, by decide⟩

/-- It is not the case that reading outside of the theme directories always fails. -/
theorem not_forall_read_outside_fails :
    ¬ ∀ (t : ThemeSettings) (disk : FileSystem) (path : Path), ¬ t.Covers disk path →
      ∃ message, t.read disk path = .error (.loadFailed path.text message) := by
  intro h
  obtain ⟨message, hfails⟩ := h ⟨[⟨"base"⟩], "tpl"⟩ besideDisk ⟨"base/../secret.tpl"⟩ (by decide)
  have hreads : read ⟨[⟨"base"⟩], "tpl"⟩ besideDisk ⟨"base/../secret.tpl"⟩ = .ok (some "secret") :=
    read_eq_ok_some_iff.mpr ⟨by decide, by decide⟩
  rw [hreads] at hfails
  cases hfails

end ThemeSettings

end LayeredTags
