import LayeredTags.Proofs.Node.Builder
import LayeredTags.Proofs.Token.Split

/-!
# Printing trees

* `Node.print`: the text of a tree, with one way to write every node.
* `Node.IsPrintable`: the trees whose text says what they are.
* `Node.pieces`: the pieces that a node is printed as.
* `Tag.spells_opening`, `Tag.spells_closing`, `Tag.spells_value`: a printed tag is a marker.
-/

namespace LayeredTags

open Text

/-! ## Tags -/

namespace Tag

/-- The name, and behind a space the raw text unless it is empty. -/
def written (tag : Tag) : String :=
  if tag.raw = "" then tag.name else tag.name ++ " " ++ tag.raw

def openMarker (tag : Tag) : String :=
  "<tag:" ++ tag.written ++ ">"

def closeMarker (tag : Tag) : String :=
  "</tag:" ++ tag.name ++ ">"

def valueMarker (tag : Tag) : String :=
  "\x7b\x7btag:" ++ tag.written ++ "\x7d\x7d"

/-- A tag that its marker spells: the raw text has no blank ends and no closer outside quotes, and
the attributes are those of the raw text. -/
structure IsPrintable (closer : List Char) (tag : Tag) : Prop where
  isName : IsName tag.name.toList
  blankFree : ∀ c, c ∈ tag.raw.toList.head? ∨ c ∈ tag.raw.toList.getLast? → isBlank c = false
  balanced : Even (tag.raw.toList.count '"')
  closersQuoted : ∀ u, u ++ closer <+: tag.raw.toList → ¬ Even (u.count '"')
  attributes_eq : tag.attributes = .read tag.raw

/-- Only the starts of the raw text can stand in front of a closer in it, so finitely many tests
decide whether a tag can be printed. -/
theorem isPrintable_iff {closer : List Char} {tag : Tag} :
    tag.IsPrintable closer ↔
      (tag.name.toList ≠ [] ∧ tag.name.toList.all isNameChar = true) ∧
        (tag.raw.toList.head?.all (!isBlank ·) = true ∧
          tag.raw.toList.getLast?.all (!isBlank ·) = true) ∧
        Even (tag.raw.toList.count '"') ∧
        (∀ n ≤ tag.raw.toList.length, tag.raw.toList.take n ++ closer <+: tag.raw.toList →
          ¬ Even ((tag.raw.toList.take n).count '"')) ∧
        tag.attributes = .read tag.raw := by
  have hall : ∀ o : Option Char, o.all (!isBlank ·) = true ↔ ∀ c ∈ o, isBlank c = false := by
    intro o
    cases o <;> simp
  rw [List.all_eq_true, hall, hall]
  constructor
  · rintro ⟨hname, hblank, hbalanced, hclosers, hattributes⟩
    exact ⟨⟨hname.nonempty, hname.chars⟩, ⟨fun c hc => hblank c (.inl hc),
      fun c hc => hblank c (.inr hc)⟩, hbalanced, fun n _ hat => hclosers _ hat, hattributes⟩
  · rintro ⟨⟨hne, hchars⟩, ⟨hhead, hlast⟩, hbalanced, hclosers, hattributes⟩
    refine ⟨⟨hne, hchars⟩, fun c hc => hc.elim (hhead c) (hlast c), hbalanced, ?_, hattributes⟩
    intro u hu
    have hstart : u <+: tag.raw.toList := (List.prefix_append u closer).trans hu
    have htake := hclosers u.length hstart.length_le
    rw [← List.prefix_iff_eq_take.mp hstart] at htake
    exact htake hu

instance {closer : List Char} {tag : Tag} : Decidable (tag.IsPrintable closer) :=
  decidable_of_iff _ isPrintable_iff.symm

/-- The raw text with the space in front of it. -/
def spacedRaw (tag : Tag) : List Char :=
  if tag.raw = "" then [] else ' ' :: tag.raw.toList

theorem toList_written (tag : Tag) : tag.written.toList = tag.name.toList ++ tag.spacedRaw := by
  rw [written, spacedRaw]
  split
  · exact (List.append_nil _).symm
  · rw [String.toList_append, String.toList_append, List.append_assoc]
    rfl

theorem toList_openMarker (tag : Tag) :
    tag.openMarker.toList = openStart ++ tag.name.toList ++ tag.spacedRaw ++ ['>'] := by
  rw [openMarker, String.toList_append, String.toList_append, toList_written, ← List.append_assoc]
  rfl

theorem toList_closeMarker (tag : Tag) :
    tag.closeMarker.toList = closeStart ++ tag.name.toList ++ [] ++ ['>'] := by
  rw [closeMarker, String.toList_append, String.toList_append, List.append_nil]
  rfl

theorem toList_valueMarker (tag : Tag) :
    tag.valueMarker.toList = valueStart ++ tag.name.toList ++ tag.spacedRaw ++ ['}', '}'] := by
  rw [valueMarker, String.toList_append, String.toList_append, toList_written, ← List.append_assoc]
  rfl

theorem trimBlank_eq_self {cs : List Char}
    (h : ∀ c, c ∈ cs.head? ∨ c ∈ cs.getLast? → isBlank c = false) : trimBlank cs = cs := by
  have hdrop : ∀ l : List Char, (∀ c ∈ l.head?, isBlank c = false) → l.dropWhile isBlank = l := by
    intro l hl
    cases l with
    | nil => rfl
    | cons c rest => exact List.dropWhile_cons_of_neg (by simp [hl c rfl])
  rw [trimBlank, hdrop cs fun c hc => h c (.inl hc), hdrop, List.reverse_reverse]
  intro c hc
  rw [List.head?_reverse] at hc
  exact h c (.inr hc)

namespace IsPrintable

variable {closer : List Char} {tag : Tag}

theorem trimBlank_spacedRaw (h : tag.IsPrintable closer) :
    String.ofList (trimBlank tag.spacedRaw) = tag.raw := by
  rw [spacedRaw]
  split
  · rename_i hraw
    rw [hraw]
    rfl
  · have hspace : trimBlank (' ' :: tag.raw.toList) = trimBlank tag.raw.toList := by
      rw [trimBlank, List.dropWhile_cons_of_pos (by decide)]
      rfl
    rw [hspace, trimBlank_eq_self h.blankFree, String.ofList_toList]

/-- A printed tag ends at its own closer: the space in front of the raw text is no closer, and
closers inside the raw text stand between quotes. -/
theorem isTagText (h : tag.IsPrintable closer) (hcloser : ∃ c rest, closer = c :: rest ∧ c ≠ ' ')
    (hinside : ∀ u, u ++ closer <+: tag.raw.toList ++ closer → u.length < tag.raw.toList.length →
      u ++ closer <+: tag.raw.toList) :
    IsTagText closer tag.name.toList tag.spacedRaw := by
  rw [spacedRaw]
  split
  · refine ⟨h.isName, ?_, ⟨?_, ?_⟩⟩
    · intro c hc
      cases hc
    · exact Even.zero
    · exact fun u _ _ => Nat.zero_le _
  · have hcount : ∀ v : List Char, (' ' :: v).count '"' = v.count '"' :=
      fun v => List.count_cons_of_ne (by decide)
    refine ⟨h.isName, ?_, ⟨?_, ?_⟩⟩
    · intro c hc
      cases hc
      decide
    · rw [hcount]
      exact h.balanced
    · intro u hu heven
      by_contra hlt
      rw [List.length_cons, Nat.not_le] at hlt
      cases u with
      | nil =>
        obtain ⟨c, rest, rfl, hc⟩ := hcloser
        exact hc (List.cons_prefix_cons.mp hu).1
      | cons c v =>
        obtain ⟨rfl, hv⟩ := List.cons_prefix_cons.mp hu
        rw [hcount] at heven
        exact h.closersQuoted v (hinside v hv (Nat.lt_of_succ_lt_succ hlt)) heven

end IsPrintable

theorem spells_opening {tag : Tag} (h : tag.IsPrintable ['>']) :
    Spells (.opening tag.name tag.raw) tag.openMarker.toList := by
  have htext : IsTagText ['>'] tag.name.toList tag.spacedRaw := by
    apply h.isTagText ⟨'>', [], rfl, by decide⟩
    intro u hu hlt
    refine List.prefix_of_prefix_length_le hu (List.prefix_append _ _) ?_
    rw [List.length_append]
    exact hlt
  have hspells := Spells.opening htext
  rwa [h.trimBlank_spacedRaw, String.ofList_toList, ← toList_openMarker] at hspells

theorem spells_closing {tag : Tag} (h : IsName tag.name.toList) :
    Spells (.closing tag.name tag.closeMarker) tag.closeMarker.toList := by
  have hspells : Spells _ (closeStart ++ tag.name.toList ++ [] ++ ['>']) :=
    .closing h fun _ hc => nomatch hc
  rwa [← toList_closeMarker, String.ofList_toList, String.ofList_toList] at hspells

theorem spells_value {tag : Tag} (h : tag.IsPrintable ['}', '}'])
    (hlast : tag.raw.toList.getLast? ≠ some '}') :
    Spells (.value tag.name tag.raw) tag.valueMarker.toList := by
  have htext : IsTagText ['}', '}'] tag.name.toList tag.spacedRaw := by
    apply h.isTagText ⟨'}', ['}'], rfl, by decide⟩
    intro u hu hlt
    by_cases hfits : u.length + 2 ≤ tag.raw.toList.length
    · refine List.prefix_of_prefix_length_le hu (List.prefix_append _ _) ?_
      rw [List.length_append]
      exact hfits
    · -- the first brace would be the last character of the raw text
      have hlength : tag.raw.toList.length = (u ++ ['}']).length := by
        rw [List.length_append, List.length_singleton]
        omega
      have hbrace : u ++ ['}'] <+: tag.raw.toList ++ ['}', '}'] := by
        refine List.IsPrefix.trans ?_ hu
        exact (List.prefix_append_right_inj u).mpr ⟨['}'], rfl⟩
      have hraw : tag.raw.toList = u ++ ['}'] :=
        ((List.prefix_of_prefix_length_le hbrace (List.prefix_append _ _)
          hlength.ge).eq_of_length hlength.symm).symm
      rw [hraw, List.getLast?_concat] at hlast
      exact absurd rfl hlast
  have hspells := Spells.value htext
  rwa [h.trimBlank_spacedRaw, String.ofList_toList, ← toList_valueMarker] at hspells

end Tag

/-! ## Nodes -/

namespace Node

mutual

def print : Node → String
  | root children => printList children
  | text content => content
  | block tag _ children => tag.openMarker ++ printList children ++ tag.closeMarker
  | value tag | parent tag => tag.valueMarker

def printList : List Node → String
  | [] => ""
  | node :: rest => print node ++ printList rest

end

mutual

/-- A node below the root whose text says what it is. -/
def IsPrintable : Node → Prop
  | root _ => False
  | text content => content ≠ "" ∧ ∀ start ∈ markerStarts, ¬ start <:+: content.toList
  | block tag closed children =>
    closed = true ∧ tag.IsPrintable ['>'] ∧ tag.openMarker.utf8ByteSize ≤ markerLimit ∧
      tag.closeMarker.utf8ByteSize ≤ markerLimit ∧ AllPrintable children
  | value tag =>
    tag.name ≠ parentName ∧ tag.IsPrintable ['}', '}'] ∧ tag.raw.toList.getLast? ≠ some '}' ∧
      tag.valueMarker.utf8ByteSize ≤ markerLimit
  | parent tag =>
    tag.name = parentName ∧ tag.IsPrintable ['}', '}'] ∧ tag.raw.toList.getLast? ≠ some '}' ∧
      tag.valueMarker.utf8ByteSize ≤ markerLimit

/-- Siblings whose text says what they are: no two texts are adjacent. -/
def AllPrintable : List Node → Prop
  | [] => True
  | node :: rest =>
    IsPrintable node ∧ (∀ next ∈ rest.head?, ¬ (node.isText = true ∧ next.isText = true)) ∧
      AllPrintable rest

end

mutual

def pieces : Node → List Piece
  | root children => piecesList children
  | text content => [.ofText content.toList]
  | block tag _ children =>
    ⟨.opening tag.name tag.raw, tag.openMarker.toList⟩ ::
      (piecesList children ++ [⟨.closing tag.name tag.closeMarker, tag.closeMarker.toList⟩])
  | value tag | parent tag => [⟨.value tag.name tag.raw, tag.valueMarker.toList⟩]

def piecesList : List Node → List Piece
  | [] => []
  | node :: rest => pieces node ++ piecesList rest

end

end Node

end LayeredTags
