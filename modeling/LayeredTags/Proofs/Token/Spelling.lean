import LayeredTags.Proofs.Token.AttributeText
import Mathlib.Data.List.TakeWhile
import Mathlib.Data.String.Basic

/-!
# How markers are written

The forms of the three markers, said without the lexer: what a marker spans, whatever follows it.

* `Spells`: a token is written as a span of characters.
* `markerAt?_eq_some_iff`: the lexer finds a marker at the start of a source if and only if the
  source starts with its span and the span is not too long.

The lexer looks at a window of the source. That the window changes nothing is
`prefix_window_iff`: it holds exactly the starts of the source that are short enough.
-/

namespace LayeredTags

open Text

structure IsName (name : List Char) : Prop where
  nonempty : name ≠ []
  chars : ∀ c ∈ name, isNameChar c = true

/-- A name with the attribute text up to the closer of its marker. The name is as long as it can
be. -/
structure IsTagText (closer name raw : List Char) : Prop where
  isName : IsName name
  maximal : ∀ c ∈ raw.head?, isNameChar c = false
  closes : ClosesFirst closer raw

/-- The markers and the characters that they span. -/
inductive Spells : Token → List Char → Prop where
  | closing {name space : List Char} (hname : IsName name)
      (hspace : ∀ c ∈ space, isMarkerSpace c = true) :
      Spells (.closing (String.ofList name) (String.ofList (closeStart ++ name ++ space ++ ['>'])))
        (closeStart ++ name ++ space ++ ['>'])
  | opening {name raw : List Char} (htext : IsTagText ['>'] name raw) :
      Spells (.opening (String.ofList name) (String.ofList (trimBlank raw)))
        (openStart ++ name ++ raw ++ ['>'])
  | value {name raw : List Char} (htext : IsTagText ['}', '}'] name raw) :
      Spells (.value (String.ofList name) (String.ofList (trimBlank raw)))
        (valueStart ++ name ++ raw ++ ['}', '}'])

/-! ## The window -/

theorem prefix_window_iff {budget : Nat} {cs l : List Char} :
    l <+: window budget cs ↔ l <+: cs ∧ (String.ofList l).utf8ByteSize ≤ budget := by
  rw [String.utf8ByteSize_ofList]
  induction cs generalizing budget l with
  | nil =>
    rw [window, List.prefix_nil]
    constructor
    · rintro rfl
      exact ⟨rfl, Nat.zero_le _⟩
    · exact fun h => h.1
  | cons c rest ih =>
    cases l with
    | nil => simp
    | cons d l =>
      rw [window, String.utf8Len_cons]
      split
      · rename_i hfits
        rw [List.cons_prefix_cons, List.cons_prefix_cons, ih]
        constructor
        · rintro ⟨rfl, hl, hsize⟩
          exact ⟨⟨rfl, hl⟩, by omega⟩
        · rintro ⟨⟨rfl, hl⟩, hsize⟩
          exact ⟨rfl, hl, by omega⟩
      · rename_i hfits
        rw [List.cons_prefix_cons, List.prefix_nil]
        constructor
        · intro h
          cases h
        · rintro ⟨⟨rfl, -⟩, hsize⟩
          omega

/-! ## The parts of a marker -/

theorem after?_eq_some_iff {opening cs rest : List Char} :
    after? opening cs = some rest ↔ cs = opening ++ rest := by
  induction opening generalizing cs with
  | nil => simp [after?]
  | cons o opening ih =>
    cases cs with
    | nil => simp [after?]
    | cons c cs =>
      rw [after?]
      split
      · rename_i heq
        subst heq
        rw [ih, List.cons_append, List.cons.injEq]
        exact (and_iff_right rfl).symm
      · rename_i hne
        constructor
        · intro h
          cases h
        · intro h
          exact absurd (List.cons.inj h).1.symm hne

theorem isName_takeWhile {cs : List Char} (h : cs.takeWhile isNameChar ≠ []) :
    IsName (cs.takeWhile isNameChar) :=
  ⟨h, fun _ hc => List.mem_takeWhile_imp hc⟩

theorem head?_dropWhile_isNameChar (cs : List Char) :
    ∀ c ∈ (cs.dropWhile isNameChar).head?, isNameChar c = false := by
  intro c hc
  have hstop := List.head?_dropWhile_not isNameChar cs
  rw [hc] at hstop
  exact hstop

theorem isNameChar_of_isMarkerSpace {c : Char} (h : isMarkerSpace c = true) :
    isNameChar c = false := by
  simp only [isMarkerSpace, Bool.or_eq_true, beq_iff_eq] at h
  rcases h with ((rfl | rfl) | rfl) | rfl <;> decide

/-! ## Markers -/

theorem closeMarker?_eq_some_iff {cs : List Char} {m : Marker} :
    closeMarker? cs = some m ↔ ∃ name space, IsName name ∧
      (∀ c ∈ space, isMarkerSpace c = true) ∧
      m = ⟨.closing (String.ofList name)
          (String.ofList (closeStart ++ name ++ space ++ ['>'])),
        closeStart ++ name ++ space ++ ['>']⟩ ∧
      m.span <+: cs := by
  rw [closeMarker?, Option.bind_eq_some_iff]
  constructor
  · rintro ⟨rest, hrest, hmarker⟩
    rw [after?_eq_some_iff] at hrest
    dsimp only at hmarker
    split at hmarker
    · rename_i hform
      obtain ⟨hname, tail, htail⟩ := hform
      obtain rfl := (Option.some.inj hmarker).symm
      refine ⟨_, _, isName_takeWhile hname, fun c hc => List.mem_takeWhile_imp hc, rfl, tail, ?_⟩
      rw [hrest, List.append_assoc, htail, List.append_assoc, List.takeWhile_append_dropWhile,
        List.append_assoc, List.takeWhile_append_dropWhile]
    · cases hmarker
  · rintro ⟨name, space, hname, hspace, rfl, tail, rfl⟩
    refine ⟨name ++ (space ++ '>' :: tail), ?_, ?_⟩
    · rw [after?_eq_some_iff]
      simp
    · have hstop : ∀ c ∈ (space ++ '>' :: tail).head?, isNameChar c = false := by
        cases space with
        | nil =>
          intro c hc
          cases hc
          decide
        | cons d space =>
          intro c hc
          cases hc
          exact isNameChar_of_isMarkerSpace (hspace _ List.mem_cons_self)
      obtain ⟨htake, hdrop⟩ := takeWhile_append_stop hname.chars hstop
      have hend : ∀ c ∈ ('>' :: tail).head?, isMarkerSpace c = false := by
        intro c hc
        cases hc
        decide
      obtain ⟨hspaceTake, hspaceDrop⟩ := takeWhile_append_stop hspace hend
      simp only
      rw [htake, hdrop, hspaceTake, hspaceDrop, if_pos ⟨hname.nonempty, tail, rfl⟩]

theorem attributeMarker?_eq_some_iff {start closer : List Char}
    {piece? : List Char → Option (List Char)} {token : String → String → Token}
    (hpieces : PiecesUpTo piece? closer) (hcloser : closer ≠ [])
    (hend : ∀ c ∈ closer.head?, isNameChar c = false) {cs : List Char} {m : Marker} :
    attributeMarker? start closer piece? token cs = some m ↔ ∃ name raw,
      IsTagText closer name raw ∧
        m = ⟨token (String.ofList name) (String.ofList (trimBlank raw)),
          start ++ name ++ raw ++ closer⟩ ∧
        m.span <+: cs := by
  rw [attributeMarker?, Option.bind_eq_some_iff]
  constructor
  · rintro ⟨rest, hrest, hmarker⟩
    rw [after?_eq_some_iff] at hrest
    dsimp only at hmarker
    split at hmarker
    · rename_i hform
      obtain ⟨hname, hfollows⟩ := hform
      obtain rfl := (Option.some.inj hmarker).symm
      obtain ⟨⟨tail, htail⟩, hcloses⟩ := (hpieces.takePieces_iff hcloser).mp ⟨rfl, hfollows⟩
      refine ⟨_, _, ⟨isName_takeWhile hname, ?_, hcloses⟩, rfl, tail, ?_⟩
      · intro c hc
        apply head?_dropWhile_isNameChar rest
        rw [← htail, List.append_assoc, List.head?_append, hc]
        rfl
      · rw [hrest, List.append_assoc, List.append_assoc, ← List.append_assoc (takePieces _ _),
          htail, List.append_assoc, List.takeWhile_append_dropWhile]
    · cases hmarker
  · rintro ⟨name, raw, htext, rfl, tail, rfl⟩
    refine ⟨name ++ (raw ++ closer ++ tail), ?_, ?_⟩
    · rw [after?_eq_some_iff]
      simp
    · have hstop : ∀ c ∈ (raw ++ closer ++ tail).head?, isNameChar c = false := by
        cases raw with
        | nil =>
          intro c hc
          obtain ⟨d, closer, rfl⟩ := List.exists_cons_of_ne_nil hcloser
          exact hend c hc
        | cons d raw => exact htext.maximal
      obtain ⟨htake, hdrop⟩ := takeWhile_append_stop htext.isName.chars hstop
      obtain ⟨hraw, hfollows⟩ :=
        (hpieces.takePieces_iff hcloser).mpr ⟨⟨tail, rfl⟩, htext.closes⟩
      simp only
      rw [htake, hdrop, hraw, if_pos ⟨htext.isName.nonempty, hfollows⟩]

theorem openMarker?_eq_some_iff {cs : List Char} {m : Marker} :
    openMarker? cs = some m ↔ ∃ name raw, IsTagText ['>'] name raw ∧
      m = ⟨.opening (String.ofList name) (String.ofList (trimBlank raw)),
        openStart ++ name ++ raw ++ ['>']⟩ ∧
      m.span <+: cs := by
  apply attributeMarker?_eq_some_iff piecesUpTo_openPiece? (by decide)
  intro c hc
  cases hc
  decide

theorem valueMarker?_eq_some_iff {cs : List Char} {m : Marker} :
    valueMarker? cs = some m ↔ ∃ name raw, IsTagText ['}', '}'] name raw ∧
      m = ⟨.value (String.ofList name) (String.ofList (trimBlank raw)),
        valueStart ++ name ++ raw ++ ['}', '}']⟩ ∧
      m.span <+: cs := by
  apply attributeMarker?_eq_some_iff piecesUpTo_valuePiece? (by decide)
  intro c hc
  cases hc
  decide

def markerStarts : List (List Char) := [closeStart, openStart, valueStart]

theorem prefix_append_append_append (a b c d : List Char) : a <+: a ++ b ++ c ++ d := by
  rw [List.append_assoc, List.append_assoc]
  exact List.prefix_append a _

theorem Spells.exists_start {token : Token} {span : List Char} (h : Spells token span) :
    ∃ start ∈ markerStarts, start <+: span := by
  cases h with
  | closing => exact ⟨closeStart, by decide, prefix_append_append_append _ _ _ _⟩
  | opening => exact ⟨openStart, by decide, prefix_append_append_append _ _ _ _⟩
  | value => exact ⟨valueStart, by decide, prefix_append_append_append _ _ _ _⟩

theorem after?_eq_none {start other cs : List Char} (hstart : start ∈ markerStarts)
    (hother : other ∈ markerStarts) (hne : start ≠ other) (hat : other <+: cs) :
    after? start cs = none := by
  rw [Option.eq_none_iff_forall_ne_some]
  intro rest hrest
  rw [after?_eq_some_iff] at hrest
  have hdistinct : ∀ s ∈ markerStarts, ∀ t ∈ markerStarts, s <+: t → s = t := by decide
  rcases List.prefix_or_prefix_of_prefix ⟨rest, hrest.symm⟩ hat with h | h
  · exact hne (hdistinct _ hstart _ hother h)
  · exact hne (hdistinct _ hother _ hstart h).symm

theorem marker?_eq_some_iff {cs : List Char} {m : Marker} :
    marker? cs = some m ↔ Spells m.token m.span ∧ m.span <+: cs := by
  rw [marker?]
  constructor
  · intro h
    rcases Option.or_eq_some_iff.mp h with h | ⟨-, h⟩
    · obtain ⟨name, space, hname, hspace, rfl, hat⟩ := closeMarker?_eq_some_iff.mp h
      exact ⟨.closing hname hspace, hat⟩
    · rcases Option.or_eq_some_iff.mp h with h | ⟨-, h⟩
      · obtain ⟨name, raw, htext, rfl, hat⟩ := openMarker?_eq_some_iff.mp h
        exact ⟨.opening htext, hat⟩
      · obtain ⟨name, raw, htext, rfl, hat⟩ := valueMarker?_eq_some_iff.mp h
        exact ⟨.value htext, hat⟩
  · obtain ⟨token, span⟩ := m
    rintro ⟨hspells, hat⟩
    cases hspells with
    | @closing name space hname hspace =>
      rw [closeMarker?_eq_some_iff.mpr ⟨name, space, hname, hspace, rfl, hat⟩]
      rfl
    | @opening name raw htext =>
      have hstart : openStart <+: cs :=
        (prefix_append_append_append openStart name raw ['>']).trans hat
      have hclose : closeMarker? cs = none := by
        rw [closeMarker?, after?_eq_none (by decide) (by decide) (by decide) hstart]
        rfl
      rw [hclose, openMarker?_eq_some_iff.mpr ⟨name, raw, htext, rfl, hat⟩]
      rfl
    | @value name raw htext =>
      have hstart : valueStart <+: cs :=
        (prefix_append_append_append valueStart name raw ['}', '}']).trans hat
      have hclose : closeMarker? cs = none := by
        rw [closeMarker?, after?_eq_none (by decide) (by decide) (by decide) hstart]
        rfl
      have hopen : openMarker? cs = none := by
        rw [openMarker?, attributeMarker?,
          after?_eq_none (by decide) (by decide) (by decide) hstart]
        rfl
      rw [hclose, hopen, valueMarker?_eq_some_iff.mpr ⟨name, raw, htext, rfl, hat⟩]
      rfl

/-- The lexer finds exactly the markers whose spans are at most `markerLimit` bytes long. -/
theorem markerAt?_eq_some_iff {cs : List Char} {m : Marker} :
    markerAt? cs = some m ↔
      Spells m.token m.span ∧ (String.ofList m.span).utf8ByteSize ≤ markerLimit ∧
        m.span <+: cs := by
  cases cs with
  | nil =>
    rw [markerAt?]
    constructor
    · intro h
      cases h
    · rintro ⟨hspells, -, hat⟩
      obtain ⟨start, hmem, hstart⟩ := hspells.exists_start
      rw [List.prefix_nil.mp hat, List.prefix_nil] at hstart
      rw [hstart] at hmem
      exact absurd hmem (by decide)
  | cons c rest =>
    rw [markerAt?]
    split
    · rw [marker?_eq_some_iff, prefix_window_iff, and_comm (a := m.span <+: _)]
    · rename_i hc
      constructor
      · intro h
        cases h
      · rintro ⟨hspells, -, hat⟩
        obtain ⟨start, hmem, hstart⟩ := hspells.exists_start
        have hheads : ∀ s ∈ markerStarts, ∃ d tail, s = d :: tail ∧ (d = '<' ∨ d = '{') := by
          simp [markerStarts, closeStart, openStart, valueStart]
        obtain ⟨d, tail, rfl, hd⟩ := hheads start hmem
        rw [(List.cons_prefix_cons.mp (hstart.trans hat)).1] at hd
        exact absurd hd hc

end LayeredTags
