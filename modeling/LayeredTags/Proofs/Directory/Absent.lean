import LayeredTags.Proofs.Directory.Changes

/-!
# Directories that are absent

* `Path.componentsOf_spell`: components with slashes between them are read as themselves.
* `FileSystem.components_of_mem_ancestors`: the paths above a path have its first components.
* `FileSystem.IsTree`: everything on a disk lies in a directory.
* `FileSystem.get?_child_createDirectories`: a directory that was absent is empty once it has been
  made, unless its path leads up.
-/

namespace LayeredTags

/-! ## Components as text -/

def Component.spell : Component → String
  | root => ""
  | here => "."
  | up => ".."
  | name text => text

/-- The text of the component is a piece that stands for it. -/
def Component.IsPiece (c : Component) : Prop :=
  Path.component? c.spell.toList = some c ∧ '/' ∉ c.spell.toList

namespace Path

/-- A root or a dot may come first, and every other component is a piece. -/
def IsSpelling (cs : List Component) : Prop :=
  ∃ front rest, cs = front ++ rest ∧ (front = [] ∨ front = [.root] ∨ front = [.here]) ∧
    ∀ c ∈ rest, c.IsPiece

theorem notMem_of_mem_slashPieces {cs piece : List Char} (h : piece ∈ slashPieces cs) :
    '/' ∉ piece := by
  induction cs generalizing piece with
  | nil =>
    obtain rfl := List.mem_singleton.mp h
    exact List.not_mem_nil
  | cons c cs ih =>
    obtain ⟨first, pieces, hpieces, hcons⟩ := FileSystem.exists_slashPieces_cons c cs
    rw [hpieces] at ih
    rw [hcons] at h
    split at h
    · rcases List.mem_cons.mp h with rfl | h
      · exact List.not_mem_nil
      · exact ih h
    · rename_i hslash
      rcases List.mem_cons.mp h with rfl | h
      · rw [List.mem_cons, not_or]
        exact ⟨Ne.symm hslash, ih (.head _)⟩
      · exact ih (.tail _ h)

theorem isPiece_of_component? {piece : List Char} {c : Component} (h : component? piece = some c)
    (hslash : '/' ∉ piece) : c.IsPiece := by
  have hspell : c.spell.toList = piece := by
    unfold component? at h
    split at h
    · cases h
    · cases h
    · obtain rfl := Option.some.inj h
      rfl
    · obtain rfl := Option.some.inj h
      exact String.toList_ofList
  rw [Component.IsPiece, hspell]
  exact ⟨h, hslash⟩

theorem isSpelling_componentsOf (cs : List Char) : IsSpelling (componentsOf cs) := by
  by_cases hne : cs = []
  · rw [hne]
    exact ⟨[], [], rfl, .inl rfl, nofun⟩
  · obtain ⟨piece, pieces, hpieces⟩ := exists_slashPieces_eq_cons cs
    refine ⟨lead piece, _, componentsOf_eq hne hpieces, ?_, fun c hc => ?_⟩
    · unfold lead
      split
      · exact .inr (.inl rfl)
      · exact .inr (.inr rfl)
      · exact .inl rfl
    · obtain ⟨piece, hmem, hpiece⟩ := List.mem_filterMap.mp hc
      exact isPiece_of_component? hpiece (notMem_of_mem_slashPieces hmem)

theorem slashPieces_intercalate {names : List String} (hne : names ≠ [])
    (h : ∀ name ∈ names, '/' ∉ name.toList) :
    slashPieces ("/".intercalate names).toList = names.map String.toList := by
  induction names with
  | nil => exact absurd rfl hne
  | cons first rest ih =>
    obtain ⟨hfirst, hrest⟩ := List.forall_mem_cons.mp h
    cases rest with
    | nil => exact slashPieces_of_notMem hfirst
    | cons second rest =>
      have htext : ("/".intercalate (first :: second :: rest)).toList =
          first.toList ++ '/' :: ("/".intercalate (second :: rest)).toList := by
        rw [String.intercalate_cons_cons, String.toList_append, String.toList_append,
          List.append_assoc]
        rfl
      rw [htext, slashPieces_append_slash, slashPieces_of_notMem hfirst,
        ih (List.cons_ne_nil _ _) hrest]
      rfl

theorem lead_of_component? {piece : List Char} {c : Component} (h : component? piece = some c) :
    lead piece = [] := by
  unfold lead
  split
  · cases h
  · cases h
  · rfl

theorem componentsOf_spell {cs : List Component} (h : IsSpelling cs) (hne : cs ≠ [])
    (hroot : cs.map Component.spell ≠ [""]) :
    componentsOf ("/".intercalate (cs.map Component.spell)).toList = cs := by
  obtain ⟨front, rest, rfl, hfront, hrest⟩ := h
  have hrestPieces : (rest.map fun c => c.spell.toList).filterMap component? = rest := by
    rw [List.filterMap_map]
    exact (List.filterMap_congr fun c hc => (hrest c hc).1).trans List.filterMap_some
  have hpieces : slashPieces ("/".intercalate ((front ++ rest).map Component.spell)).toList =
      (front ++ rest).map fun c => c.spell.toList := by
    rw [slashPieces_intercalate (by simpa using hne), List.map_map]
    · rfl
    · intro name hname
      obtain ⟨c, hc, rfl⟩ := List.mem_map.mp hname
      rcases List.mem_append.mp hc with hc | hc
      · rcases hfront with rfl | rfl | rfl
        · cases hc
        · obtain rfl := List.mem_singleton.mp hc
          decide
        · obtain rfl := List.mem_singleton.mp hc
          decide
      · exact (hrest c hc).2
  -- Only the root alone has no text, and it is written in its own way.
  have htext : ("/".intercalate ((front ++ rest).map Component.spell)).toList ≠ [] := by
    intro hempty
    rw [hempty] at hpieces
    obtain ⟨c, hc, hspell⟩ := List.map_eq_singleton_iff.mp hpieces.symm
    rw [hc] at hroot
    exact hroot (congrArg (fun name => [name]) (String.toList_eq_nil_iff.mp hspell))
  rcases hfront with rfl | rfl | rfl
  · obtain ⟨c, rest, rfl⟩ := List.exists_cons_of_ne_nil hne
    rw [componentsOf_eq htext hpieces, hpieces, lead_of_component? (hrest c (.head _)).1]
    exact hrestPieces
  · rw [componentsOf_eq htext hpieces, hpieces]
    show Component.root :: (rest.map _).filterMap component? = _
    rw [hrestPieces]
    rfl
  · rw [componentsOf_eq htext hpieces, hpieces]
    show Component.here :: (rest.map _).filterMap component? = _
    rw [hrestPieces]
    rfl

theorem IsSpelling.take {cs : List Component} (h : IsSpelling cs) (n : Nat) :
    IsSpelling (cs.take n) := by
  obtain ⟨front, rest, rfl, hfront, hrest⟩ := h
  refine ⟨front.take n, rest.take (n - front.length), List.take_append, ?_,
    fun c hc => hrest c (List.mem_of_mem_take hc)⟩
  cases n with
  | zero => exact .inl rfl
  | succ n => rcases hfront with rfl | rfl | rfl <;> simp

theorem IsSpelling.eq_root {cs : List Component} (h : IsSpelling cs)
    (hcs : cs.map Component.spell = [""]) : cs = [.root] := by
  obtain ⟨c, rfl, hspell⟩ := List.map_eq_singleton_iff.mp hcs
  obtain ⟨front, rest, hc, hfront, hrest⟩ := h
  rcases hfront with rfl | rfl | rfl
  · obtain rfl : rest = [c] := hc.symm
    have hpiece := (hrest c (.head _)).1
    rw [hspell] at hpiece
    cases hpiece
  · rw [(List.cons.inj hc).1]
  · rw [(List.cons.inj hc).1] at hspell
    exact absurd hspell (by decide)

theorem IsSpelling.root_notMem_drop {cs : List Component} (h : IsSpelling cs) (n : Nat) :
    .root ∉ cs.drop (n + 1) := by
  intro hroot
  obtain ⟨front, rest, rfl, hfront, hrest⟩ := h
  have hmem : .root ∈ rest := by
    rcases hfront with rfl | rfl | rfl <;> exact List.mem_of_mem_drop hroot
  cases (hrest _ hmem).1

end Path

/-! ## Paths above a path -/

namespace FileSystem

variable {fs changed : FileSystem} {path p : Path} {l : Location}

theorem ancestors_eq (path : Path) : ancestors path =
    path :: (startsOf (path.components.map Component.spell)).tail.map fun names =>
      if names = [""] then ⟨"/"⟩ else ⟨"/".intercalate names⟩ := rfl

theorem exists_take_of_mem_startsOf {names start : List String} (h : start ∈ startsOf names) :
    ∃ n < names.length, start = names.take (n + 1) := by
  rw [startsOf, List.mem_reverse] at h
  obtain ⟨n, hn, rfl⟩ := List.mem_map.mp h
  exact ⟨n, List.mem_range.mp hn, rfl⟩

/-- A path above another one, or the path itself, has its first components, and the further ones do
not lead to the root. -/
theorem components_of_mem_ancestors (h : p ∈ ancestors path) :
    ∃ rest, path.components = p.components ++ rest ∧ .root ∉ rest := by
  have hspelling : Path.IsSpelling path.components := Path.isSpelling_componentsOf _
  rw [ancestors_eq] at h
  rcases List.mem_cons.mp h with rfl | h
  · exact ⟨[], (List.append_nil _).symm, List.not_mem_nil⟩
  · obtain ⟨names, hnames, rfl⟩ := List.mem_map.mp h
    obtain ⟨n, hn, rfl⟩ := exists_take_of_mem_startsOf (List.mem_of_mem_tail hnames)
    rw [List.length_map] at hn
    rw [← List.map_take]
    have hne : path.components.take (n + 1) ≠ [] := by
      rw [ne_eq, List.take_eq_nil_iff, not_or]
      exact ⟨Nat.succ_ne_zero n, List.ne_nil_of_length_pos (Nat.zero_lt_of_lt hn)⟩
    have hcomponents : (if (path.components.take (n + 1)).map Component.spell = [""] then
        (⟨"/"⟩ : Path) else
          ⟨"/".intercalate ((path.components.take (n + 1)).map Component.spell)⟩).components =
        path.components.take (n + 1) := by
      split
      · exact ((hspelling.take _).eq_root (by assumption)).symm
      · exact Path.componentsOf_spell (hspelling.take _) hne (by assumption)
    refine ⟨path.components.drop (n + 1), ?_, hspelling.root_notMem_drop n⟩
    rw [hcomponents, List.take_append_drop]

/-! ## What is made -/

def IsTree (fs : FileSystem) : Prop :=
  ∀ l name, fs.get? (l ++ [name]) ≠ none → fs.get? l = some .directory

theorem isTree_empty : FileSystem.empty.IsTree := by
  intro l name hthere
  obtain ⟨entry, hentry⟩ := Option.ne_none_iff_exists'.mp hthere
  rw [get?, if_neg (by simp)] at hentry
  obtain ⟨rest, later, hentries, -⟩ := List.lookup_eq_some_iff.mp hentry
  have hmem : (l ++ [name], entry) ∈ FileSystem.empty.entries := hentries ▸ by simp
  obtain ⟨hl, -⟩ := Prod.mk.inj (List.mem_singleton.mp hmem)
  rw [(List.append_inj' (hl.trans (List.nil_append ["work"]).symm) rfl).1]
  rfl

theorem eq_destination_of_locateEntry (h : fs.locateEntry path = .ok l) :
    l = fs.destination path := by
  obtain ⟨_, -, hfollow⟩ := exists_of_bind_eq_ok h
  rw [destination_eq_foldl_steps]
  exact eq_foldl_steps_of_follow hfollow

theorem Grown.destination (h : Grown fs changed) (path : Path) :
    changed.destination path = fs.destination path := by
  rw [FileSystem.destination, FileSystem.destination, h.here]

theorem eq_destination_of_createDirectory (h : fs.createDirectory path = .ok changed)
    (hnone : fs.get? l = none) (hmade : changed.get? l ≠ none) : l = fs.destination path := by
  obtain ⟨at_, hlocate, -, rfl⟩ := createDirectory_eq_ok h
  have hfree : fs.get? l ≠ some .directory := by simp [hnone]
  rw [get?_put (ne_root_of_get?_ne hfree)] at hmade
  split at hmade
  · rename_i hsame
    rw [hsame, eq_destination_of_locateEntry hlocate]
  · exact absurd hnone hmade

theorem exists_destination_of_createMissing {paths : List Path} (hnone : fs.get? l = none)
    (hmade : (fs.createMissing paths).2.get? l ≠ none) : ∃ p ∈ paths, l = fs.destination p := by
  induction paths with
  | nil => exact absurd hnone hmade
  | cons path above ih =>
    have hgrown := fs.grown_createMissing above
    rw [createMissing] at hmade
    split at hmade
    · exact ⟨path, .head _, eq_destination_of_createDirectory (by assumption) hnone hmade⟩
    · split at hmade
      · rename_i habove
        rw [habove] at ih
        obtain ⟨p, hp, hl⟩ := ih hmade
        exact ⟨p, .tail _ hp, hl⟩
      · rename_i disk habove
        rw [habove] at ih hgrown
        by_cases hstill : disk.get? l = none
        · split at hmade
          · refine ⟨path, .head _, ?_⟩
            rw [← hgrown.destination]
            exact eq_destination_of_createDirectory (by assumption) hstill hmade
          · exact absurd hstill hmade
        · obtain ⟨p, hp, hl⟩ := ih hstill
          exact ⟨p, .tail _ hp, hl⟩
    · exact absurd hnone hmade

theorem get?_child_createDirectories (htree : fs.IsTree)
    (habsent : fs.get? (fs.destination path) = none) (hup : .up ∉ path.components)
    (name : String) :
    (fs.createDirectories path).2.get? (fs.destination path ++ [name]) = none := by
  have hnone : fs.get? (fs.destination path ++ [name]) = none := by
    by_contra hthere
    rw [htree _ name hthere] at habsent
    cases habsent
  -- What is made in the directory would be one of the directories above it, which are no longer.
  by_contra hmade
  rw [createDirectories] at hmade
  split at hmade
  · exact hmade hnone
  · obtain ⟨p, hp, hl⟩ := exists_destination_of_createMissing hnone hmade
    obtain ⟨rest, hrest, hroot⟩ := components_of_mem_ancestors hp
    have hstays : Component.leaves 0 rest = false := by
      refine Component.leaves_eq_false hroot (fun hmem => hup ?_) 0
      rw [hrest]
      exact List.mem_append_right _ hmem
    have hprefix : fs.destination p <+: fs.destination path := destination_mono hrest hstays
    have hlength := hprefix.length_le
    rw [← hl, List.length_append] at hlength
    exact absurd hlength (Nat.not_succ_le_self _)

end FileSystem

end LayeredTags
