import LayeredTags.Proofs.Source.Candidates

/-!
# Files below a directory

* `Path.steps_join`: the steps to a file below a directory.
* `FileSystem.Leads`: a path leads to a directory; `Leads.locateEntry_join` is the place of a file
  in it, and `Leads.list_eq_ok` what is listed in it.
* `FileSystem.removeFile_of_file`, `rename_of_file`: what can be done with a file that is there.
-/

namespace LayeredTags

/-! ## Files below a directory -/

namespace Path

variable {dir : Path} {file : String}

theorem slashPieces_of_notMem {cs : List Char} (h : '/' ∉ cs) : slashPieces cs = [cs] := by
  induction cs with
  | nil => rfl
  | cons c cs ih =>
    rw [List.mem_cons, not_or] at h
    rw [slashPieces, if_neg (Ne.symm h.1), ih h.2]

theorem steps_join (hdir : dir.text ≠ "") (hne : file ≠ "") (hslash : '/' ∉ file.toList) :
    (dir.join file).steps = dir.steps ++ [file] := by
  have hfile : slashPieces file.toList = [file.toList] := slashPieces_of_notMem hslash
  have hname : ([file.toList].filter (· ≠ [])).map String.ofList = [file] := by
    simp [hne]
  have hrelative : file.toList.head? ≠ some '/' := fun h => hslash (List.mem_of_head? h)
  rw [join, if_neg hrelative]
  by_cases hlast : dir.text.toList.getLast? = some '/'
  · obtain ⟨cs, hcs⟩ := List.getLast?_eq_some_iff.mp hlast
    rw [if_pos (.inr hlast), steps, steps, String.toList_append, hcs, List.append_assoc,
      List.singleton_append, slashPieces_append_slash, slashPieces_append_slash, hfile,
      List.filter_append, List.filter_append, List.map_append, List.map_append, hname]
    simp [slashPieces]
  · rw [if_neg (by simp [hdir, hlast]), steps, steps, String.toList_append, String.toList_append,
      List.append_assoc]
    show ((slashPieces (dir.text.toList ++ '/' :: file.toList)).filter _).map _ = _
    rw [slashPieces_append_slash, hfile, List.filter_append, List.map_append, hname]

theorem exists_text_join (dir : Path) (hslash : '/' ∉ file.toList) :
    ∃ between, (between = "" ∨ between = "/") ∧
      (dir.join file).text = dir.text ++ between ++ file := by
  have hrelative : file.toList.head? ≠ some '/' := fun h => hslash (List.mem_of_head? h)
  rw [join, if_neg hrelative]
  split
  · exact ⟨"", .inl rfl, by rw [String.append_empty]⟩
  · exact ⟨"/", .inr rfl, rfl⟩

theorem isAbsolute_join (hdir : dir.text ≠ "") (hslash : '/' ∉ file.toList) :
    (dir.join file).isAbsolute = dir.isAbsolute := by
  have hrelative : file.toList.head? ≠ some '/' := fun h => hslash (List.mem_of_head? h)
  have hne : dir.text.toList ≠ [] := by simpa using hdir
  rw [join, if_neg hrelative]
  split <;> simp [isAbsolute, String.toList_append, List.head?_append_of_ne_nil _ hne]

end Path

namespace FileSystem

variable {fs : FileSystem} {path dir : Path} {l location : Location} {name : String}
  {entry : Entry} {e : OsError} {content : Content} {modified : Instant}

/-! ## Following paths -/

structure IsPlain (name : String) : Prop where
  ne_empty : name ≠ ""
  noSlash : '/' ∉ name.toList
  ne_dot : name ≠ "."
  ne_dots : name ≠ ".."
  short : name.utf8ByteSize ≤ nameLimit

theorem ne_root_of_get?_ne (h : fs.get? l ≠ some .directory) : l ≠ [] :=
  fun hroot => h (hroot ▸ get?_root)

theorem passThrough_eq_ok_iff {here : Location} :
    fs.passThrough l = .ok here ↔ fs.get? l = some .directory ∧ here = l := by
  rw [passThrough]
  cases hl : fs.get? l with
  | none => simp
  | some entry => cases entry <;> simp [eq_comm]

theorem passThrough_of_none (h : fs.get? l = none) : fs.passThrough l = .error .notFound := by
  rw [passThrough, h]

theorem follow_append (fs : FileSystem) (start : Location) (first second : List String) :
    fs.follow start (first ++ second) =
      fs.follow start first >>= fun l => fs.follow l second := by
  induction first generalizing start with
  | nil => rfl
  | cons name rest ih =>
    rw [List.cons_append, follow, follow]
    cases fs.passThrough start with
    | error e => rfl
    | ok here =>
      show (if name = "." then _ else _) = (if name = "." then _ else _) >>= _
      split_ifs
      · exact ih here
      · exact ih here.dropLast
      · rfl
      · exact ih (here ++ [name])

theorem follow_plain (hdirectory : fs.get? l = some .directory) (hname : IsPlain name) :
    fs.follow l [name] = .ok (l ++ [name]) := by
  rw [follow, passThrough_eq_ok_iff.mpr ⟨hdirectory, rfl⟩]
  show (if name = "." then _ else _) = _
  rw [if_neg hname.ne_dot, if_neg hname.ne_dots, if_neg (Nat.not_lt.mpr hname.short)]
  rfl

theorem locateEntry_of_checkPath (h : checkPath path = .ok ()) : fs.locateEntry path =
    fs.follow (if path.isAbsolute then [] else fs.here) path.steps := by
  rw [locateEntry, h]
  rfl

theorem checkPath_of_locateEntry (h : fs.locateEntry path = .ok l) : checkPath path = .ok () := by
  obtain ⟨_, hcheck, -⟩ := exists_of_bind_eq_ok h
  exact hcheck

theorem checkPath_eq_ok_iff : checkPath path = .ok () ↔
    holdsNul path = false ∧ path.text ≠ "" ∧ path.text.utf8ByteSize ≤ pathLimit := by
  rw [checkPath]
  split_ifs <;> simp_all

theorem ne_empty_of_checkPath (h : checkPath path = .ok ()) : path.text ≠ "" :=
  (checkPath_eq_ok_iff.mp h).2.1

theorem locate_of_not_endsInSlash (h : path.endsInSlash = false) :
    fs.locate path = fs.locateEntry path := by
  rw [locate, h]
  cases fs.locateEntry path with
  | error e => rfl
  | ok l =>
    simp only [bind, Except.bind]
    split <;> rfl

theorem locate_of_locateEntry_error (h : fs.locateEntry path = .error e) :
    fs.locate path = .error e := by
  simp only [locate, h, bind, Except.bind]

theorem locate_of_none (h : fs.locateEntry path = .ok l) (hnone : fs.get? l = none) :
    fs.locate path = .ok l := by
  simp only [locate, h, hnone, bind, Except.bind]

theorem locateEntry_join_eq (hdir : checkPath dir = .ok ()) (hname : IsPlain name)
    (hcheck : checkPath (dir.join name) = .ok ()) : fs.locateEntry (dir.join name) =
      fs.locateEntry dir >>= fun l => fs.follow l [name] := by
  have hne := ne_empty_of_checkPath hdir
  rw [locateEntry_of_checkPath hdir, locateEntry_of_checkPath hcheck,
    Path.isAbsolute_join hne hname.noSlash, Path.steps_join hne hname.ne_empty hname.noSlash,
    follow_append]

/-- The path leads to a directory. -/
structure Leads (fs : FileSystem) (path : Path) (l : Location) : Prop where
  locateEntry : fs.locateEntry path = .ok l
  isDirectory : fs.get? l = some .directory

namespace Leads

theorem locate (h : fs.Leads path l) : fs.locate path = .ok l := by
  simp only [FileSystem.locate, h.locateEntry, h.isDirectory, bind, Except.bind]

theorem stat (h : fs.Leads path l) : fs.stat path = .ok .directory := by
  simp only [FileSystem.stat, h.locate, h.isDirectory, bind, Except.bind]

theorem passThrough (h : fs.Leads path l) : fs.passThrough l = .ok l :=
  passThrough_eq_ok_iff.mpr ⟨h.isDirectory, rfl⟩

theorem list_eq_ok (h : fs.Leads path l) : fs.list path = .ok (fs.namesIn l) := by
  simp only [list, h.locate, h.passThrough, bind, Except.bind, pure, Except.pure]

theorem removeFile (h : fs.Leads path l) : fs.removeFile path = .error .isADirectory := by
  simp only [FileSystem.removeFile, h.locate, h.isDirectory, bind, Except.bind]

theorem locateEntry_join (h : fs.Leads dir l) (hname : IsPlain name)
    (hcheck : checkPath (dir.join name) = .ok ()) :
    fs.locateEntry (dir.join name) = .ok (l ++ [name]) := by
  rw [locateEntry_join_eq (checkPath_of_locateEntry h.locateEntry) hname hcheck, h.locateEntry]
  exact follow_plain h.isDirectory hname

end Leads

theorem leads_of_stat (h : fs.stat path = .ok .directory) : ∃ l, fs.Leads path l := by
  obtain ⟨l, hlocate, h⟩ := exists_of_bind_eq_ok h
  refine ⟨l, locateEntry_of_locate hlocate, ?_⟩
  split at h
  · rename_i hentry
    rw [hentry, Except.ok.inj h]
  · cases h

/-! ## What is at a path -/

theorem stat_of_locate_none (hlocate : fs.locate path = .ok l) (hnone : fs.get? l = none) :
    fs.stat path = .error .notFound := by
  simp only [stat, hlocate, hnone, bind, Except.bind]

theorem stat_of_locate_error (h : fs.locate path = .error e) : fs.stat path = .error e := by
  simp only [stat, h, bind, Except.bind]

theorem read_of_stat_error (h : fs.stat path = .error e) : fs.read path = .error e := by
  simp only [read, h, bind, Except.bind]

theorem locate_or_none_of_stat (h : fs.stat path = .error .notFound) :
    fs.locate path = .error .notFound ∨ ∃ l, fs.locate path = .ok l ∧ fs.get? l = none := by
  cases hlocate : fs.locate path with
  | error e =>
    rw [stat_of_locate_error hlocate] at h
    cases h
    exact .inl rfl
  | ok l =>
    refine .inr ⟨l, rfl, ?_⟩
    simp only [stat, hlocate, bind, Except.bind] at h
    split at h
    · cases h
    · assumption

theorem removeFile_of_stat (h : fs.stat path = .error .notFound) :
    fs.removeFile path = .error .notFound := by
  rcases locate_or_none_of_stat h with hlocate | ⟨l, hlocate, hnone⟩
  · simp only [removeFile, hlocate, bind, Except.bind]
  · simp only [removeFile, hlocate, hnone, bind, Except.bind]

theorem removeFile_of_file (hlocate : fs.locate path = .ok l)
    (hfile : fs.get? l = some (.file content modified)) :
    fs.removeFile path = .ok (fs.erase l) := by
  simp only [removeFile, hlocate, hfile, bind, Except.bind]

theorem list_of_stat (h : fs.stat path = .error .notFound) :
    fs.list path = .error .notFound := by
  rcases locate_or_none_of_stat h with hlocate | ⟨l, hlocate, hnone⟩
  · simp only [list, hlocate, bind, Except.bind]
  · simp only [list, hlocate, passThrough_of_none hnone, bind, Except.bind]

theorem rename_of_file (hnul : holdsNul path = false) (hlocate : fs.locate path = .ok l)
    (hl : fs.get? l ≠ some .directory) (hentry : fs.get? location = some entry) :
    fs.rename location path = .ok ((fs.erase location).put l entry) := by
  simp only [rename, hnul, Bool.false_eq_true, if_false, hlocate, hentry, bind, Except.bind]

end FileSystem

end LayeredTags
