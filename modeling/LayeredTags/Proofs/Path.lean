import LayeredTags.Proofs.FileSystem
import Mathlib.Data.List.Induction

/-!
# Where a path leads by its components

* `FileSystem.destination`: the location of a path when its dots are resolved in the text alone.
* `FileSystem.destination_eq_foldl_steps`: following the pieces between slashes comes to the same.
* `FileSystem.eq_destination_of_locate`: a path that leads anywhere on a disk leads there.
* `Component.leaves`, `Component.exists_foldl_follow`: components that never leave the place where
  they start stay below it.
-/

namespace LayeredTags

namespace Component

/-- The location behind one component. -/
def follow (location : Location) : Component → Location
  | root => []
  | here => location
  | up => location.dropLast
  | name text => location ++ [text]

/-- Whether components leave the place where they start, at the end or on the way, given how many
names they have got below it. -/
def leaves : Nat → List Component → Bool
  | _, [] => false
  | _, root :: _ => true
  | depth, here :: rest => leaves depth rest
  | 0, up :: _ => true
  | depth + 1, up :: rest => leaves depth rest
  | depth, name _ :: rest => leaves (depth + 1) rest

theorem exists_foldl_follow {base inner : Location} {cs : List Component}
    (h : leaves inner.length cs = false) :
    ∃ inner', cs.foldl follow (base ++ inner) = base ++ inner' := by
  induction cs generalizing inner with
  | nil => exact ⟨inner, rfl⟩
  | cons c rest ih =>
    rw [List.foldl_cons]
    cases c with
    | root => cases h
    | here => exact ih h
    | name text =>
      rw [follow, List.append_assoc]
      apply ih
      rw [List.length_append]
      exact h
    | up =>
      cases inner using List.reverseRecOn with
      | nil => cases h
      | append_singleton inner last =>
        rw [List.length_append] at h
        rw [follow, ← List.append_assoc, List.dropLast_concat]
        exact ih h

end Component

namespace FileSystem

/-- The location that a path leads to by its components, whatever is on the disk. -/
def destination (fs : FileSystem) (path : Path) : Location :=
  path.components.foldl Component.follow fs.here

variable {fs : FileSystem} {path : Path}

theorem stepLexically_ofList {piece : List Char} (hne : piece ≠ []) (location : Location) :
    stepLexically location (String.ofList piece) =
      ((Path.component? piece).toList).foldl Component.follow location := by
  have hofList : ∀ s : List Char, String.ofList piece = String.ofList s ↔ piece = s :=
    fun s => String.ofList_inj
  have hdot : String.ofList piece = "." ↔ piece = ['.'] := hofList ['.']
  have hdots : String.ofList piece = ".." ↔ piece = ['.', '.'] := hofList ['.', '.']
  rw [stepLexically]
  simp only [hdot, hdots]
  by_cases h : piece = ['.']
  · rw [if_pos h, h]
    rfl
  · by_cases h' : piece = ['.', '.']
    · rw [if_neg h, if_pos h', h']
      rfl
    · have hcomponent : Path.component? piece = some (.name (String.ofList piece)) := by
        rw [Path.component?.eq_def]
        split
        · exact absurd rfl hne
        · exact absurd rfl h
        · exact absurd rfl h'
        · rfl
      rw [if_neg h, if_neg h', hcomponent]
      rfl

theorem foldl_stepLexically_pieces (pieces : List (List Char)) (location : Location) :
    ((pieces.filter (· ≠ [])).map String.ofList).foldl stepLexically location =
      (pieces.filterMap Path.component?).foldl Component.follow location := by
  induction pieces generalizing location with
  | nil => rfl
  | cons piece rest ih =>
    by_cases hne : piece = []
    · rw [hne, List.filter_cons_of_neg (by simp), List.filterMap_cons_none rfl]
      exact ih location
    · rw [List.filter_cons_of_pos (by simpa using hne), List.map_cons, List.foldl_cons,
        stepLexically_ofList hne, ih]
      cases hcomponent : Path.component? piece with
      | none => rw [List.filterMap_cons_none hcomponent]; rfl
      | some c => rw [List.filterMap_cons_some hcomponent]; rfl

theorem exists_slashPieces_cons (c : Char) (cs : List Char) :
    ∃ piece pieces, Path.slashPieces cs = piece :: pieces ∧
      Path.slashPieces (c :: cs) =
        if c = '/' then [] :: piece :: pieces else (c :: piece) :: pieces := by
  have hne : Path.slashPieces cs ≠ [] := by
    cases cs with
    | nil => exact List.cons_ne_nil _ _
    | cons d cs =>
      rw [Path.slashPieces]
      split
      · exact List.cons_ne_nil _ _
      · split
        · exact List.cons_ne_nil _ _
        · exact List.cons_ne_nil _ _
  obtain ⟨piece, pieces, hpieces⟩ := List.exists_cons_of_ne_nil hne
  exact ⟨piece, pieces, hpieces, by rw [Path.slashPieces, hpieces]⟩

/-- Resolving the dots in the components of a path and following its pieces from the place where
it starts come to the same location. -/
theorem destination_eq_foldl_steps :
    fs.destination path =
      path.steps.foldl stepLexically (if path.isAbsolute then [] else fs.here) := by
  rw [destination, Path.components, Path.steps, foldl_stepLexically_pieces, Path.isAbsolute]
  generalize path.text.toList = cs
  cases cs with
  | nil => rfl
  | cons c cs =>
    obtain ⟨piece, pieces, -, hcons⟩ := exists_slashPieces_cons c cs
    by_cases hslash : c = '/'
    · rw [if_pos hslash] at hcons
      rw [Path.componentsOf, hcons, hslash]
      rfl
    · rw [if_neg hslash] at hcons
      have hstart : ((c :: cs).head? == some '/') = false := by
        simpa using hslash
      rw [Path.componentsOf, hcons, hstart]
      by_cases hdot : c :: piece = ['.']
      · rw [hdot]
        rfl
      · split
        · exact absurd (by assumption) (List.cons_ne_nil _ _)
        · rename_i heq
          cases heq
        · rename_i heq
          exact absurd (List.cons.inj heq).1 hdot
        · rfl

theorem eq_foldl_steps_of_follow {start l : Location} {steps : List String}
    (h : fs.follow start steps = .ok l) : l = steps.foldl stepLexically start := by
  induction steps generalizing start with
  | nil => exact (Except.ok.inj h).symm
  | cons name rest ih =>
    rw [follow] at h
    obtain ⟨here, hpass, h⟩ := exists_of_bind_eq_ok h
    have hhere : here = start := by
      rw [passThrough] at hpass
      split at hpass
      · exact (Except.ok.inj hpass).symm
      · cases hpass
      · cases hpass
    rw [hhere] at h
    rw [List.foldl_cons, stepLexically]
    split at h
    · rw [if_pos ‹_›]
      exact ih h
    · rw [if_neg ‹_›]
      split at h
      · rw [if_pos ‹_›]
        exact ih h
      · rw [if_neg ‹_›]
        split at h
        · cases h
        · exact ih h

theorem eq_destination_of_locate {l : Location} (h : fs.locate path = .ok l) :
    l = fs.destination path := by
  obtain ⟨_, -, hfollow⟩ := exists_of_bind_eq_ok (locateEntry_of_locate h)
  rw [destination_eq_foldl_steps]
  exact eq_foldl_steps_of_follow hfollow

end FileSystem

end LayeredTags
