import LayeredTags.Proofs.Source.Theme
import Mathlib.Data.List.Forall2

/-!
# Where the candidates of a name lie

A candidate is a theme directory and a file name behind it. The name was checked for two dots before
the extension was added to it, so two dots can only come from the extension, or from the piece in
which the name and the extension meet.

* `Path.slashPieces_append`: the pieces of a text and of another one behind it.
* `Path.components_join`: the components of a file below a directory.
* `ThemeSettings.Climbs`: the extension brings two dots into the file name.
* `ThemeSettings.candidates_components`: the components of every candidate.
* `ThemeSettings.covers_of_mem_candidates`: unless the extension climbs, every candidate leads to a
  location in a theme directory.
* `ThemeSettings.candidates_read_inside`: reading refuses no candidate, wherever it leads.
-/

namespace LayeredTags

/-! ## Pieces and components -/

namespace Path

theorem slashPieces_ne_nil (cs : List Char) : slashPieces cs ≠ [] := by
  cases cs with
  | nil => exact List.cons_ne_nil _ _
  | cons c cs =>
    obtain ⟨piece, pieces, -, hcons⟩ := FileSystem.exists_slashPieces_cons c cs
    rw [hcons]
    split <;> exact List.cons_ne_nil _ _

theorem exists_slashPieces_eq_cons (cs : List Char) :
    ∃ first rest, slashPieces cs = first :: rest :=
  List.exists_cons_of_ne_nil (slashPieces_ne_nil cs)

theorem exists_slashPieces_eq_concat (cs : List Char) :
    ∃ init last, slashPieces cs = init ++ [last] :=
  ⟨_, _, (List.dropLast_concat_getLast (slashPieces_ne_nil cs)).symm⟩

/-- The last piece of a text and the first one of the text behind it become one piece. -/
theorem slashPieces_append {cs ds last first : List Char} {init rest : List (List Char)}
    (hcs : slashPieces cs = init ++ [last]) (hds : slashPieces ds = first :: rest) :
    slashPieces (cs ++ ds) = init ++ (last ++ first) :: rest := by
  induction cs generalizing init last with
  | nil =>
    have hnil : [[]] = init ++ [last] := hcs
    obtain ⟨rfl, hlast⟩ := List.append_eq_singleton_iff.mp hnil.symm |>.resolve_right (by simp)
    obtain rfl := (List.cons.inj hlast).1
    exact hds
  | cons c cs ih =>
    obtain ⟨piece, pieces, hpieces, hcons⟩ := FileSystem.exists_slashPieces_cons c cs
    obtain ⟨piece', pieces', hpieces', hcons'⟩ := FileSystem.exists_slashPieces_cons c (cs ++ ds)
    rw [List.cons_append, hcons']
    rw [hcons] at hcs
    by_cases hslash : c = '/'
    · rw [if_pos hslash] at hcs ⊢
      cases init with
      | nil => cases hcs
      | cons head init =>
        obtain ⟨rfl, htail⟩ := List.cons.inj hcs
        rw [← hpieces', ih (hpieces.trans htail), List.cons_append]
    · rw [if_neg hslash] at hcs ⊢
      cases init with
      | nil =>
        obtain ⟨rfl, rfl⟩ := List.cons.inj hcs
        rw [ih (show Path.slashPieces cs = [] ++ [piece] from hpieces)] at hpieces'
        obtain ⟨rfl, rfl⟩ := List.cons.inj hpieces'
        rfl
      | cons head init =>
        obtain ⟨rfl, rfl⟩ := List.cons.inj hcs
        rw [ih (show Path.slashPieces cs = (piece :: init) ++ [last] from hpieces)] at hpieces'
        obtain ⟨rfl, rfl⟩ := List.cons.inj hpieces'
        rfl

/-- What the first piece of a path stands for beside its own component. -/
def lead : List Char → List Component
  | [] => [.root]
  | ['.'] => [.here]
  | _ => []

theorem eq_here_of_mem_lead {piece : List Char} {c : Component} (hpiece : piece ≠ [])
    (hc : c ∈ lead piece) : c = .here := by
  unfold lead at hc
  split at hc
  · exact absurd rfl hpiece
  · exact List.mem_singleton.mp hc
  · cases hc

theorem head?_eq_slash_iff {cs piece : List Char} {pieces : List (List Char)} (hne : cs ≠ [])
    (h : slashPieces cs = piece :: pieces) : cs.head? = some '/' ↔ piece = [] := by
  obtain ⟨c, cs, rfl⟩ := List.exists_cons_of_ne_nil hne
  obtain ⟨_, _, -, hcons⟩ := FileSystem.exists_slashPieces_cons c cs
  rw [h] at hcons
  by_cases hslash : c = '/'
  · rw [if_pos hslash] at hcons
    simp [hslash, (List.cons.inj hcons).1]
  · rw [if_neg hslash] at hcons
    simp [hslash, (List.cons.inj hcons).1]

theorem componentsOf_eq {cs piece : List Char} {pieces : List (List Char)} (hne : cs ≠ [])
    (h : slashPieces cs = piece :: pieces) :
    componentsOf cs = lead piece ++ (slashPieces cs).filterMap component? := by
  unfold componentsOf
  rw [h]
  match piece with
  | [] =>
    cases pieces with
    | nil =>
      obtain ⟨cs, rfl⟩ := List.head?_eq_some_iff.mp ((head?_eq_slash_iff hne h).mpr rfl)
      obtain ⟨_, _, -, hcons⟩ := FileSystem.exists_slashPieces_cons '/' cs
      rw [hcons, if_pos rfl] at h
      cases h
    | cons second rest => rfl
  | ['.'] => rfl
  | [c] =>
    by_cases hdot : c = '.'
    · rw [hdot]
      rfl
    · simp [lead, hdot]
  | c :: d :: cs => simp [lead]

theorem slashPieces_slash (cs : List Char) : slashPieces ('/' :: cs) = [] :: slashPieces cs := by
  obtain ⟨piece, pieces, hpieces, hcons⟩ := FileSystem.exists_slashPieces_cons '/' cs
  rw [hcons, if_pos rfl, hpieces]

theorem slashPieces_append_slash (cs ds : List Char) :
    slashPieces (cs ++ '/' :: ds) = slashPieces cs ++ slashPieces ds := by
  obtain ⟨init, last, hcs⟩ := exists_slashPieces_eq_concat cs
  rw [slashPieces_append hcs (slashPieces_slash ds), hcs, List.append_nil, List.append_assoc,
    List.singleton_append]

theorem componentsOf_append_slash (cs ds : List Char) :
    componentsOf (cs ++ '/' :: ds) =
      componentsOf (cs ++ ['/']) ++ (slashPieces ds).filterMap component? := by
  obtain ⟨piece, pieces, hcs⟩ := exists_slashPieces_eq_cons cs
  have hall : ∀ es, componentsOf (cs ++ '/' :: es) =
      lead piece ++ ((slashPieces cs).filterMap component? ++
        (slashPieces es).filterMap component?) := by
    intro es
    have hpieces := slashPieces_append_slash cs es
    rw [componentsOf_eq (by simp) (hpieces.trans (by rw [hcs]; rfl)), hpieces,
      List.filterMap_append]
  rw [hall ds, hall []]
  simp [slashPieces, component?]

theorem componentsOf_concat_slash {cs : List Char} (hne : cs ≠ []) :
    componentsOf (cs ++ ['/']) = componentsOf cs := by
  obtain ⟨piece, pieces, hcs⟩ := exists_slashPieces_eq_cons cs
  have hpieces := slashPieces_append_slash cs []
  rw [componentsOf_eq (by simp) (hpieces.trans (by rw [hcs]; rfl)), hpieces,
    componentsOf_eq hne hcs]
  simp [slashPieces, component?]

/-- Behind a directory every piece of a file name stands for its own component. Only behind the
empty path a leading dot of the file name counts as well. -/
theorem components_join (dir : Path) {file : String} (hne : file ≠ "")
    (hrelative : file.toList.head? ≠ some '/') :
    ∃ front, (∀ c ∈ front, c = Component.here) ∧ (dir.join file).components =
      dir.components ++ (front ++ (slashPieces file.toList).filterMap component?) := by
  unfold join components
  rw [if_neg hrelative]
  by_cases hempty : dir.text = ""
  · obtain ⟨piece, pieces, hfile⟩ := exists_slashPieces_eq_cons file.toList
    refine ⟨lead piece, ?_, ?_⟩
    · have hpiece : piece ≠ [] := fun hnil =>
        hrelative ((head?_eq_slash_iff (by simpa using hne) hfile).mpr hnil)
      exact fun c hc => eq_here_of_mem_lead hpiece hc
    · rw [if_pos (.inl (by rw [hempty]; rfl)), hempty, String.empty_append,
        componentsOf_eq (by simpa using hne) hfile]
      rfl
  · refine ⟨[], by simp, ?_⟩
    have hdir : dir.text.toList ≠ [] := by simpa using hempty
    by_cases hlast : dir.text.toList.getLast? = some '/'
    · obtain ⟨cs, hcs⟩ := List.getLast?_eq_some_iff.mp hlast
      rw [if_pos (.inr hlast), String.toList_append, hcs, List.append_assoc]
      exact componentsOf_append_slash cs _
    · rw [if_neg (by simp [hdir, hlast]), String.toList_append, String.toList_append,
        List.append_assoc, ← componentsOf_concat_slash hdir]
      exact componentsOf_append_slash _ _

theorem root_notMem_filterMap_component? (pieces : List (List Char)) :
    Component.root ∉ pieces.filterMap component? := by
  intro hroot
  obtain ⟨piece, -, hpiece⟩ := List.mem_filterMap.mp hroot
  unfold component? at hpiece
  split at hpiece <;> cases hpiece

theorem up_mem_filterMap_component?_iff {pieces : List (List Char)} :
    Component.up ∈ pieces.filterMap component? ↔ ['.', '.'] ∈ pieces := by
  rw [List.mem_filterMap]
  constructor
  · rintro ⟨piece, hmem, hpiece⟩
    unfold component? at hpiece
    split at hpiece
    · cases hpiece
    · cases hpiece
    · exact hmem
    · cases hpiece
  · intro hmem
    exact ⟨_, hmem, rfl⟩

end Path

theorem Component.leaves_eq_false {rest : List Component} (hroot : root ∉ rest) (hup : up ∉ rest)
    (depth : Nat) : leaves depth rest = false := by
  induction rest generalizing depth with
  | nil => rfl
  | cons c rest ih =>
    simp only [List.mem_cons, not_or] at hroot hup
    cases c with
    | root => exact absurd rfl hroot.1
    | up => exact absurd rfl hup.1
    | here => exact ih hroot.2 hup.2 depth
    | name text => exact ih hroot.2 hup.2 (depth + 1)

/-! ## Candidates -/

namespace ThemeSettings

theorem isSafe_iff {name : String} : isSafe name = true ↔ name ≠ "" ∧
    name.toList.head? ≠ some '/' ∧ ['.', '.'] ∉ Path.slashPieces name.toList := by
  unfold isSafe
  rw [Bool.and_eq_true, decide_eq_true_iff]
  refine and_congr_right fun hne => ?_
  have hnil : name.toList ≠ [] := by simpa using hne
  obtain ⟨piece, pieces, hpieces⟩ := Path.exists_slashPieces_eq_cons name.toList
  rw [ne_eq, Path.head?_eq_slash_iff hnil hpieces, ← Path.up_mem_filterMap_component?_iff,
    Path.components, Path.componentsOf_eq hnil hpieces, List.all_eq_true]
  constructor
  · intro hinner
    constructor
    · rintro rfl
      exact absurd (hinner .root (List.mem_append_left _ (.head _))) (by decide)
    · intro hup
      exact absurd (hinner .up (List.mem_append_right _ hup)) (by decide)
  · rintro ⟨hpiece, hup⟩ c hc
    rcases List.mem_append.mp hc with hlead | hc
    · rw [Path.eq_here_of_mem_lead hpiece hlead]
      rfl
    · cases c with
      | root => exact absurd hc (Path.root_notMem_filterMap_component? _)
      | up => exact absurd hc hup
      | here => rfl
      | name text => rfl

theorem fileName_eq_or (extension name : String) :
    fileName extension name = name ∨ fileName extension name = name ++ "." ++ extension := by
  unfold fileName
  split
  · exact .inl rfl
  · exact .inr rfl

/-- The extension is added to the name and brings two dots as a piece of their own into the file
name: as one of its own later pieces, or in the piece in which the two meet. -/
def Climbs (extension name : String) : Prop :=
  fileName extension name ≠ name ∧
    (['.', '.'] ∈ (Path.slashPieces extension.toList).tail ∨
      (Path.slashPieces name.toList).getLast? = some [] ∧
        (Path.slashPieces extension.toList).head? = some ['.'] ∨
      (Path.slashPieces name.toList).getLast? = some ['.'] ∧
        (Path.slashPieces extension.toList).head? = some [])

instance (extension name : String) : Decidable (Climbs extension name) :=
  inferInstanceAs (Decidable (_ ∧ _))

theorem climbs_iff {extension name : String} (hsafe : isSafe name = true) :
    ['.', '.'] ∈ Path.slashPieces (fileName extension name).toList ↔ Climbs extension name := by
  obtain ⟨-, -, hdots⟩ := isSafe_iff.mp hsafe
  unfold Climbs
  by_cases hsame : fileName extension name = name
  · rw [hsame]
    simp [hdots]
  · have hfile := (fileName_eq_or extension name).resolve_left hsame
    obtain ⟨init, last, hname⟩ := Path.exists_slashPieces_eq_concat name.toList
    obtain ⟨first, rest, hextension⟩ := Path.exists_slashPieces_eq_cons extension.toList
    have hdot : Path.slashPieces ('.' :: extension.toList) = ('.' :: first) :: rest := by
      rw [Path.slashPieces, if_neg (by decide), hextension]
    have hpieces : Path.slashPieces (fileName extension name).toList =
        init ++ (last ++ '.' :: first) :: rest := by
      rw [hfile, String.toList_append, String.toList_append, List.append_assoc]
      exact Path.slashPieces_append hname hdot
    have hinit : ['.', '.'] ∉ init := by
      intro hmem
      exact hdots (hname ▸ List.mem_append_left _ hmem)
    have hmeet : ['.', '.'] = last ++ '.' :: first ↔
        last = [] ∧ first = ['.'] ∨ last = ['.'] ∧ first = [] := by
      rcases last with _ | ⟨c, _ | ⟨d, cs⟩⟩
      · simp [eq_comm]
      · simp [eq_comm]
      · simp
    rw [hpieces, hname, hextension]
    simp only [List.mem_append, hinit, List.mem_cons, false_or, hmeet]
    simp [hsame, or_comm]

variable {t : ThemeSettings} {name : String} {disk : FileSystem} {path : Path}

theorem components_candidate (hsafe : isSafe name = true) (dir : Path) (extension : String) :
    ∃ rest, (dir.join (fileName extension name)).components = dir.components ++ rest ∧
      .root ∉ rest ∧ (.up ∈ rest ↔ Climbs extension name) := by
  obtain ⟨hne, hrelative, -⟩ := isSafe_iff.mp hsafe
  obtain ⟨c, cs, hname⟩ := List.exists_cons_of_ne_nil (show name.toList ≠ [] by simpa using hne)
  have hfile : fileName extension name ≠ "" ∧
      (fileName extension name).toList.head? ≠ some '/' := by
    rcases fileName_eq_or extension name with hfile | hfile
    · rw [hfile]
      exact ⟨hne, hrelative⟩
    · rw [hfile]
      simp_all [String.toList_append]
  obtain ⟨front, hfront, hcomponents⟩ := Path.components_join dir hfile.1 hfile.2
  refine ⟨_, hcomponents, ?_, ?_⟩
  · intro hroot
    rcases List.mem_append.mp hroot with hroot | hroot
    · cases hfront _ hroot
    · exact Path.root_notMem_filterMap_component? _ hroot
  · have hup : Component.up ∉ front := fun hup => nomatch hfront _ hup
    rw [← climbs_iff hsafe, List.mem_append, Path.up_mem_filterMap_component?_iff,
      or_iff_right hup]

/-- **Components of the candidates.** A name that is not safe has no candidates. The candidates of
a safe name are the theme directories in their order, each followed by components that never lead
to the root, and that lead up if and only if the extension climbs. -/
theorem candidates_components (t : ThemeSettings) (name : String) :
    isSafe name = false ∧ t.candidates name = [] ∨
      isSafe name = true ∧ List.Forall₂ (fun dir path => ∃ rest,
        path.components = dir.components ++ rest ∧ .root ∉ rest ∧
          (.up ∈ rest ↔ Climbs t.extension name)) t.directories (t.candidates name) := by
  unfold candidates
  cases hsafe : isSafe name with
  | false => exact .inl ⟨rfl, rfl⟩
  | true =>
    rw [if_pos rfl, List.forall₂_map_right_iff, List.forall₂_same]
    exact .inr ⟨rfl, fun dir _ => components_candidate hsafe dir t.extension⟩

/-- It is not the case that the candidates of every name stay behind a theme directory: the name
"." is safe, and with an extension that starts with a slash it becomes two dots. -/
theorem not_forall_candidates_stay :
    ¬ ∀ (t : ThemeSettings) (name : String), ∀ path ∈ t.candidates name,
      ∃ dir ∈ t.directories, ∃ rest, path.components = dir.components ++ rest ∧
        ∀ c ∈ rest, c.isInner = true := by
  intro h
  obtain ⟨dir, hdir, rest, hrest, hinner⟩ :=
    h ⟨[⟨"base"⟩], "/secret.tpl"⟩ "." ⟨"base/../secret.tpl"⟩ (by decide)
  obtain rfl := List.mem_singleton.mp hdir
  have hout : (Path.mk "base/../secret.tpl").components =
      (Path.mk "base").components ++ [.up, .name "secret.tpl"] := by decide
  obtain rfl := List.append_cancel_left (hout.symm.trans hrest)
  exact absurd (hinner .up (.head _)) (by decide)

theorem exists_of_mem_candidates (hpath : path ∈ t.candidates name) :
    isSafe name = true ∧ ∃ dir ∈ t.directories, path = dir.join (fileName t.extension name) := by
  unfold candidates at hpath
  split at hpath
  · obtain ⟨dir, hdir, rfl⟩ := List.mem_map.mp hpath
    exact ⟨by assumption, dir, hdir, rfl⟩
  · cases hpath

theorem covers_of_mem_candidates (hclimbs : ¬ Climbs t.extension name)
    (hpath : path ∈ t.candidates name) (disk : FileSystem) : t.Covers disk path := by
  obtain ⟨hsafe, dir, hdir, rfl⟩ := exists_of_mem_candidates hpath
  obtain ⟨rest, hcomponents, hroot, hup⟩ := components_candidate hsafe dir t.extension
  have hstays : Component.leaves 0 rest = false :=
    Component.leaves_eq_false hroot (fun hmem => hclimbs (hup.mp hmem)) 0
  exact ⟨dir, hdir, FileSystem.destination_mono hcomponents hstays⟩

theorem under_of_mem_candidates (hpath : path ∈ t.candidates name) :
    ∃ dir ∈ t.directories, path.Under dir := by
  obtain ⟨hsafe, dir, hdir, rfl⟩ := exists_of_mem_candidates hpath
  obtain ⟨rest, hcomponents, -, -⟩ := components_candidate hsafe dir t.extension
  exact ⟨dir, hdir, rest, hcomponents.symm⟩

/-! ## Reading candidates -/

theorem isSafe_eq_false_iff : isSafe name = false ↔ name = "" ∨
    name.toList.head? = some '/' ∨ ['.', '.'] ∈ Path.slashPieces name.toList := by
  rw [← Bool.not_eq_true, isSafe_iff]
  tauto

theorem read_ne_outside {dir : Path} (hdir : dir ∈ t.directories) (hunder : path.Under dir)
    (shown : String) : t.read disk path ≠ .error (.loadFailed shown outsideMessage) := by
  rw [read, if_pos ⟨dir, hdir, hunder⟩]
  intro h
  split at h
  · cases h
  · cases h
  · exact message_ne_outsideMessage _ (SourceError.loadFailed.inj (Except.error.inj h)).2

/-- **Reading candidates.** A name that is empty, absolute or has two dots as a piece has no
candidates. Any other name has one in every theme directory, in their order: the file name joined to
the directory, whose components come first in it. On no disk reading it says that it is outside of
the theme directories, and it gives the text of the file that is there. -/
theorem candidates_read_inside (t : ThemeSettings) (name : String) :
    (name = "" ∨ name.toList.head? = some '/' ∨ ['.', '.'] ∈ Path.slashPieces name.toList) ∧
        t.candidates name = [] ∨
      ¬ (name = "" ∨ name.toList.head? = some '/' ∨ ['.', '.'] ∈ Path.slashPieces name.toList) ∧
        List.Forall₂ (fun dir path => path = dir.join (fileName t.extension name) ∧
          path.Under dir ∧ ∀ disk,
            (∀ shown, t.read disk path ≠ .error (.loadFailed shown outsideMessage)) ∧
            ∀ text, t.read disk path = .ok (some text) ↔ disk.readText path = .ok text)
          t.directories (t.candidates name) := by
  rw [← isSafe_eq_false_iff, candidates]
  cases hsafe : isSafe name with
  | false => exact .inl ⟨rfl, rfl⟩
  | true =>
    refine .inr ⟨Bool.true_eq_false.mp, ?_⟩
    rw [if_pos rfl, List.forall₂_map_right_iff, List.forall₂_same]
    intro dir hdir
    obtain ⟨rest, hcomponents, -⟩ := components_candidate hsafe dir t.extension
    have hunder : (dir.join (fileName t.extension name)).Under dir := ⟨rest, hcomponents.symm⟩
    refine ⟨rfl, hunder, fun disk => ⟨read_ne_outside hdir hunder, fun text => ?_⟩⟩
    rw [read_eq_ok_some_iff, and_iff_right ⟨dir, hdir, hunder⟩]

end ThemeSettings

end LayeredTags
