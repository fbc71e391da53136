import LayeredTags.Proofs.CoreTags.Reading
import LayeredTags.Proofs.CoreTags.Strands
import Mathlib

/-!
# Helper mustaches in the code of the core tags

The templates of the core tags put openers and closers of helper blocks around the code of other
tags. Escaping does not keep every text from being read as a mustache, a text may end in what hides
the mustache behind it, and a plain path may read as a closer or as an alternative.

* `Nested`: helper marks in which every block is closed by its own closer.
* `helpersIn`, `written`: the live helper mustaches of a code, and the helper marks that the
  templates write into it.
* `Undisturbed`: no strand hides a helper mark or adds a helper mustache.
* `liveHelpers_eq_iff`: the helper mustaches are the helper marks of the templates if and only if
  nothing disturbs them.
* `helpersIn_compileSource`: that statement for the code of a source, and what it comes to if the
  literals of the source are tame.
-/

namespace LayeredTags.CoreTags

/-! ## Helper marks -/

/-- A mark that opens or closes a helper block or starts its alternative. -/
def Mark.isHelper : Mark → Bool
  | opener _ _ | closer _ | alternative => true
  | value _ => false

def Found.isHelper (f : Found) : Bool :=
  f.content.head? == some '#' || f.content.head? == some '/' || f.content == "else".toList

def helpersIn (code : String) : List Found :=
  ((Reading.plain false).live 0 code.toList).filter (·.isHelper)

/-- The helper mark that a template writes as this strand. -/
def Strand.helperMark? : Strand → Option Mark
  | mark m => if m.isHelper then some m else none
  | text _ | literal _ => none

/-- The helper marks that the templates write, with the positions where they start. -/
def written (pos : Nat) : List Strand → List (Nat × Mark)
  | [] => []
  | s :: rest => (s.helperMark?.map (pos, ·)).toList ++ written (pos + s.spell.length) rest

def Mark.found (pos : Nat) (m : Mark) : Found := ⟨pos, m.content.toList⟩

/-- The mustaches of the helper marks that the templates write. -/
def writtenMustaches (pos : Nat) (ss : List Strand) : List Found :=
  (written pos ss).map fun m => m.2.found m.1

/-- Helper marks in which every block is closed by its own closer, with at most one alternative
between the two. -/
inductive Nested : List Mark → Prop
  | nil : Nested []
  | block (helper path : String) {inner rest : List Mark} (hinner : Nested inner)
      (hrest : Nested rest) : Nested (.opener helper path :: (inner ++ .closer helper :: rest))
  | choice (helper path : String) {first second rest : List Mark} (hfirst : Nested first)
      (hsecond : Nested second) (hrest : Nested rest) :
      Nested (.opener helper path ::
        (first ++ .alternative :: (second ++ .closer helper :: rest)))

theorem Nested.append {a b : List Mark} (ha : Nested a) (hb : Nested b) : Nested (a ++ b) := by
  induction ha with
  | nil => exact hb
  | block helper path hinner _ _ ih =>
    rw [List.cons_append, List.append_assoc, List.cons_append]
    exact .block helper path hinner ih
  | choice helper path hfirst hsecond _ _ _ ih =>
    rw [List.cons_append, List.append_assoc, List.cons_append, List.append_assoc, List.cons_append]
    exact .choice helper path hfirst hsecond ih

theorem map_snd_written (pos : Nat) (ss : List Strand) :
    (written pos ss).map Prod.snd = ss.filterMap Strand.helperMark? := by
  induction ss generalizing pos with
  | nil => rfl
  | cons s rest ih =>
    rw [written, List.map_append, ih]
    cases hs : s.helperMark? with
    | none =>
      rw [List.filterMap_cons_none hs]
      rfl
    | some m =>
      rw [List.filterMap_cons_some hs]
      rfl

theorem nested_blockStrands (tag : Tag) {children : List Strand}
    (h : Nested (children.filterMap Strand.helperMark?)) :
    Nested ((blockStrands tag children).filterMap Strand.helperMark?) := by
  unfold blockStrands
  split
  · split
    · rename_i helper _ _ path _
      have hmarks : (Strand.mark (.opener helper path) :: children ++
          [Strand.mark (.closer helper)]).filterMap Strand.helperMark? =
            .opener helper path ::
              (children.filterMap Strand.helperMark? ++ .closer helper :: []) := by
        simp [Strand.helperMark?, Mark.isHelper]
      rw [hmarks]
      exact .block helper path h .nil
    · exact .nil
  · split_ifs
    · exact .nil
    · exact h

theorem nested_valueStrands (tag : Tag) :
    Nested ((valueStrands tag).filterMap Strand.helperMark?) := by
  unfold valueStrands contextStrands
  split_ifs
  · split
    · exact .nil
    · rename_i path _
      split
      · exact .choice "if" path .nil .nil .nil
      · exact .nil
  · split <;> exact .nil

mutual

theorem nested_strands : ∀ node : Node, Nested ((strands node).filterMap Strand.helperMark?)
  | .root children => nested_strandsList children
  | .text _ => .nil
  | .block tag true children => nested_blockStrands tag (nested_strandsList children)
  | .block _ false _ => .nil
  | .value tag => nested_valueStrands tag
  | .parent _ => .nil

theorem nested_strandsList : ∀ nodes : List Node,
    Nested ((strandsList nodes).filterMap Strand.helperMark?)
  | [] => .nil
  | node :: rest => by
    rw [strandsList, List.filterMap_append]
    exact (nested_strands node).append (nested_strandsList rest)

end

/-! ## What is found of them -/

/-- A helper mark of a template is reached in plain text, and any other strand brings no live helper
mustache to its end. -/
def Strand.Stands (pos : Nat) (s : Strand) (r : Reading) : Prop :=
  match s.helperMark? with
  | some _ => r = .plain false
  | none => ∀ f ∈ r.live pos s.spell.toList, f.isHelper = false

/-- No strand hides a helper mark of a template or adds a helper mustache. -/
def Undisturbed (pos : Nat) : List Strand → Reading → Prop
  | [], _ => True
  | s :: rest, r =>
    s.Stands pos r ∧ Undisturbed (pos + s.spell.length) rest (r.behind pos s.spell.toList)

theorem isHelper_found {m : Mark} (h : m.isHelper = true) (pos : Nat) :
    (m.found pos).isHelper = true := by
  cases m with
  | opener helper path => simp [Mark.found, Mark.content, Found.isHelper]
  | closer helper => simp [Mark.found, Mark.content, Found.isHelper]
  | alternative => simp [Mark.found, Mark.content, Found.isHelper]
  | value path => cases h

theorem toList_mustache (content : String) :
    (mustache content).toList = '{' :: '{' :: (content.toList ++ ['}', '}']) := by
  simp [mustache, openBraces, closeBraces, String.toList_append]

theorem le_of_mem_writtenMustaches {pos : Nat} {ss : List Strand} {f : Found}
    (h : f ∈ writtenMustaches pos ss) : pos ≤ f.start := by
  obtain ⟨found, hfound, rfl⟩ := List.mem_map.mp h
  clear h
  show pos ≤ found.1
  induction ss generalizing pos with
  | nil => cases hfound
  | cons s rest ih =>
    rw [written, List.mem_append, Option.mem_toList] at hfound
    rcases hfound with hfound | hfound
    · obtain ⟨m, -, rfl⟩ := Option.map_eq_some_iff.mp hfound
      exact Nat.le_refl pos
    · have hle := ih hfound
      omega

theorem exists_mark_of_helperMark? {s : Strand} {m : Mark} (h : s.helperMark? = some m) :
    s = .mark m ∧ m.isHelper = true := by
  cases s with
  | text content => cases h
  | literal value => cases h
  | mark m' =>
    rw [Strand.helperMark?] at h
    split at h
    · obtain rfl := Option.some.inj h
      exact ⟨rfl, ‹_›⟩
    · cases h

/-- The live helper mustaches that end in strands. -/
def liveHelpers (pos : Nat) (ss : List Strand) (r : Reading) : List Found :=
  (r.live pos (spell ss).toList).filter (·.isHelper)

section reading

variable {s : Strand} {m : Mark} {rest : List Strand} {pos : Nat} {r : Reading}
  {later : List Found}

theorem liveHelpers_cons : liveHelpers pos (s :: rest) r =
    (r.live pos s.spell.toList).filter (·.isHelper) ++
      liveHelpers (pos + s.spell.length) rest (r.behind pos s.spell.toList) := by
  rw [liveHelpers, liveHelpers, spell_cons, String.toList_append, Reading.live_append,
    List.filter_append, String.length_toList]

theorem liveHelpers_other_iff (hr : r.StartsBefore pos) (hs : s.helperMark? = none)
    (hlater : ∀ f ∈ later, pos + s.spell.length ≤ f.start) :
    liveHelpers pos (s :: rest) r = later ↔ s.Stands pos r ∧
      liveHelpers (pos + s.spell.length) rest (r.behind pos s.spell.toList) = later := by
  have hstands : s.Stands pos r ↔ (r.live pos s.spell.toList).filter (·.isHelper) = [] := by
    simp [Strand.Stands, hs]
  rw [liveHelpers_cons, hstands]
  constructor
  · intro h
    have hnone : (r.live pos s.spell.toList).filter (·.isHelper) = [] := by
      rw [List.eq_nil_iff_forall_not_mem]
      intro f hf
      have hstart := Reading.start_lt_of_mem_live hr (List.mem_filter.mp hf).1
      have hle := hlater f (h ▸ List.mem_append_left _ hf)
      rw [String.length_toList] at hstart
      omega
    rw [hnone, List.nil_append] at h
    exact ⟨hnone, h⟩
  · rintro ⟨hnone, h⟩
    rw [hnone, List.nil_append, h]

theorem liveHelpers_mark_iff (hr : r.StartsBefore pos) (hm : m.isHelper = true)
    (hcontent : '}' ∉ m.content.toList) :
    liveHelpers pos (.mark m :: rest) r = m.found pos :: later ↔ r = .plain false ∧
      liveHelpers (pos + (Strand.mark m).spell.length) rest
        (r.behind pos (Strand.mark m).spell.toList) = later := by
  have hlive : (Reading.plain false).live pos (Strand.mark m).spell.toList = [m.found pos] := by
    rw [Strand.spell, toList_mustache]
    exact Reading.live_mustache hcontent
  constructor
  · intro h
    have hmem : m.found pos ∈ liveHelpers pos (.mark m :: rest) r := h ▸ List.mem_cons_self
    have hplain : r = .plain false := by
      by_contra hne
      exact Reading.start_ne_of_mem_live hr hne (List.mem_filter.mp hmem).1 rfl
    subst hplain
    rw [liveHelpers_cons, hlive, List.filter_cons_of_pos (isHelper_found hm pos)] at h
    exact ⟨rfl, (List.cons.inj h).2⟩
  · rintro ⟨rfl, h⟩
    rw [liveHelpers_cons, hlive, List.filter_cons_of_pos (isHelper_found hm pos), h]
    rfl

end reading

theorem liveHelpers_eq_iff {ss : List Strand} {pos : Nat} {r : Reading}
    (hr : r.StartsBefore pos) (hmarks : ∀ m, .mark m ∈ ss → '}' ∉ m.content.toList) :
    liveHelpers pos ss r = writtenMustaches pos ss ↔ Undisturbed pos ss r := by
  induction ss generalizing pos r with
  | nil => simp [liveHelpers, Reading.live, writtenMustaches, written, Undisturbed]
  | cons s rest ih =>
    have hrest : ∀ m, .mark m ∈ rest → '}' ∉ m.content.toList :=
      fun m hm => hmarks m (List.mem_cons_of_mem _ hm)
    have hstarts : (r.behind pos s.spell.toList).StartsBefore (pos + s.spell.length) := by
      rw [← String.length_toList]
      exact Reading.startsBefore_behind hr
    rw [Undisturbed, ← ih hstarts hrest]
    cases hhelper : s.helperMark? with
    | none =>
      have hwritten : writtenMustaches pos (s :: rest) =
          writtenMustaches (pos + s.spell.length) rest := by
        simp [writtenMustaches, written, hhelper]
      rw [hwritten]
      exact liveHelpers_other_iff hr hhelper fun f => le_of_mem_writtenMustaches
    | some m =>
      obtain ⟨rfl, hm⟩ := exists_mark_of_helperMark? hhelper
      have hwritten : writtenMustaches pos (.mark m :: rest) =
          m.found pos :: writtenMustaches (pos + (Strand.mark m).spell.length) rest := by
        simp [writtenMustaches, written, hhelper]
      rw [hwritten, Strand.Stands, hhelper]
      exact liveHelpers_mark_iff hr hm (hmarks m List.mem_cons_self)

/-! ## Attributes that disturb nothing -/

/-- A path that reads as a closer or as an alternative between the braces of a value. -/
def IsReserved (path : String) : Prop :=
  path.toList.head? = some '/' ∨ path = "else"

theorem isHelper_found_value_iff {path : String} (h : (Mark.value path).IsPlain) (pos : Nat) :
    ((Mark.value path).found pos).isHelper = true ↔ IsReserved path := by
  have hhash : path.toList.head? ≠ some '#' := by
    intro hhead
    exact notMem_of_all_isPathChar h (by decide) (List.mem_of_head? hhead)
  have helse : path.toList = "else".toList ↔ path = "else" := String.toList_inj
  simp [Found.isHelper, Mark.found, Mark.content, IsReserved, hhash, ← helse]

section tame

variable {nodes : List Node} (htexts : ∀ content, .text content ∈ nodes →
  '{' ∉ content.toList ∧ '\\' ∉ content.toList)

include htexts

theorem behind_spell (pos : Nat) {s : Strand} (hs : s.ComesFrom nodes)
    (hliteral : ∀ value, s = .literal value → tame false value.toList = true) :
    (Reading.plain false).behind pos s.spell.toList = .plain false ∧
      (s.Stands pos (.plain false) ↔ ∀ path, s = .mark (.value path) → ¬ IsReserved path) := by
  cases hs with
  | text hmem =>
    obtain ⟨hbrace, hbackslash⟩ := htexts _ hmem
    have hquiet : (Reading.plain false).Quiet pos _ := Reading.quiet_of_notMem hbrace hbackslash
    obtain ⟨hplain, hlive⟩ := hquiet
    exact ⟨hplain, by simp [Strand.Stands, Strand.helperMark?, Strand.spell, hlive]⟩
  | literal value =>
    have htoList : (escape value).toList = escapeChars value.toList := String.toList_ofList
    have hquiet : (Reading.plain false).Quiet pos (escapeChars value.toList) :=
      quiet_escapeChars_iff.mpr (hliteral value rfl)
    obtain ⟨hplain, hlive⟩ := hquiet
    rw [Strand.spell, htoList]
    exact ⟨hplain, by simp [Strand.Stands, Strand.helperMark?, Strand.spell, htoList, hlive]⟩
  | mark hplain =>
    rename_i m
    rw [Strand.Stands, Strand.spell, toList_mustache]
    refine ⟨Reading.behind_mustache hplain.notMem_content, ?_⟩
    rw [Reading.live_mustache hplain.notMem_content]
    cases m with
    | opener helper path => simp [Strand.helperMark?, Mark.isHelper]
    | closer helper => simp [Strand.helperMark?, Mark.isHelper]
    | alternative => simp [Strand.helperMark?, Mark.isHelper]
    | value path =>
      have hfound := isHelper_found_value_iff hplain pos
      simp [Strand.helperMark?, Mark.isHelper, ← hfound, Mark.found]

theorem undisturbed_iff_of_tame {ss : List Strand} {pos : Nat}
    (hss : ∀ s ∈ ss, s.ComesFrom nodes)
    (hliterals : ∀ value, .literal value ∈ ss → tame false value.toList = true) :
    Undisturbed pos ss (.plain false) ↔
      ∀ path, .mark (.value path) ∈ ss → ¬ IsReserved path := by
  induction ss generalizing pos with
  | nil => simp [Undisturbed]
  | cons s rest ih =>
    obtain ⟨hs, hrest⟩ := List.forall_mem_cons.mp hss
    obtain ⟨hplain, hstands⟩ := behind_spell htexts pos hs fun value hvalue =>
      hliterals value (hvalue ▸ List.mem_cons_self)
    rw [Undisturbed, hplain, hstands,
      ih hrest fun value hvalue => hliterals value (List.mem_cons_of_mem _ hvalue)]
    simp only [List.mem_cons, or_imp, forall_and, eq_comm]

end tame

/-- **Helper mustaches in the code of the core tags.** The templates of the core tags write their
helper marks well nested. The live helper mustaches of the code are exactly these marks if and only
if no strand disturbs them. If the texts of the source hold neither braces nor backslashes and every
literal is tame, that is so if and only if no value has a path that reads as a closer or as an
alternative. -/
theorem helpersIn_compileSource {source : String} {strict : Bool} {emission : Emission}
    (h : (Compiler.mk registry strict).compileSource source = .ok emission) :
    Nested ((written 0 (strands (parse source).root)).map Prod.snd) ∧
    (helpersIn emission.code = writtenMustaches 0 (strands (parse source).root) ↔
      Undisturbed 0 (strands (parse source).root) (.plain false)) ∧
    ((∀ content, .text content ∈ (parse source).root.subtrees →
        '{' ∉ content.toList ∧ '\\' ∉ content.toList) →
      (∀ value, .literal value ∈ strands (parse source).root →
        tame false value.toList = true) →
      (helpersIn emission.code = writtenMustaches 0 (strands (parse source).root) ↔
        ∀ path, .mark (.value path) ∈ strands (parse source).root → ¬ IsReserved path)) := by
  have horigin := comesFrom_strands (parse source).root
  have hiff : helpersIn emission.code = writtenMustaches 0 (strands (parse source).root) ↔
      Undisturbed 0 (strands (parse source).root) (.plain false) := by
    rw [helpersIn, code_compileSource h]
    refine liveHelpers_eq_iff trivial fun m hm => ?_
    cases horigin _ hm with
    | mark hplain => exact hplain.notMem_content
  refine ⟨?_, hiff, fun htexts hliterals => ?_⟩
  · rw [map_snd_written]
    exact nested_strands _
  · rw [hiff]
    exact undisturbed_iff_of_tame htexts horigin hliterals

def valueInCondition : String :=
  "<tag:If var=\"a\">\x7b\x7btag:Var name=\"b\" default=\"none\"\x7d\x7d</tag:If>"

/-- A value whose path reads as a closer. -/
def closerAsValue : String :=
  "\x7b\x7btag:Var name=\"/if\"\x7d\x7d"

theorem helpersIn_compileSource_valueInCondition :
    Nested [.opener "if" "a", .opener "if" "b", .alternative, .closer "if", .closer "if"] ∧
      helpersIn (Compiler.permissive registry [valueInCondition]).code =
        [⟨0, "#if a".toList⟩, ⟨9, "#if b".toList⟩, ⟨23, "else".toList⟩, ⟨35, "/if".toList⟩,
          ⟨42, "/if".toList⟩] := by
  have h : (Compiler.mk registry false).compileSource valueInCondition =
      .ok (Compiler.permissive registry [valueInCondition]) := rfl
  have hroot : (parse valueInCondition).root =
      .root [.block ⟨"If", .read "var=\"a\"", "var=\"a\""⟩ true
        [.value ⟨"Var", .read "name=\"b\" default=\"none\"", "name=\"b\" default=\"none\""⟩]] := by
    cbv
  have hstrands : strands (parse valueInCondition).root =
      [.mark (.opener "if" "a"), .mark (.opener "if" "b"), .mark (.value "b"), .mark .alternative,
        .literal "none", .mark (.closer "if"), .mark (.closer "if")] := by cbv
  have htexts : ∀ content, .text content ∉ (parse valueInCondition).root.subtrees := by
    simp [hroot, Node.subtrees, Node.subtreesList]
  have hliterals : ∀ value, .literal value ∈ strands (parse valueInCondition).root →
      tame false value.toList = true := by
    simp [hstrands, tame]
  have hpaths : ∀ path, .mark (.value path) ∈ strands (parse valueInCondition).root →
      ¬ IsReserved path := by
    simp [hstrands, IsReserved]
  obtain ⟨hnested, -, htame⟩ := helpersIn_compileSource h
  have hfound := (htame (fun content hmem => absurd hmem (htexts content)) hliterals).mpr hpaths
  rw [hstrands] at hnested hfound
  exact ⟨hnested, hfound⟩

/-- It is not the case that the live helper mustaches of every source without braces and backslashes
in its texts are those of the templates: the path of a value can be a closer. -/
theorem not_forall_helpersIn_written :
    ¬ ∀ (source : String) (emission : Emission),
      (Compiler.mk registry false).compileSource source = .ok emission →
        (∀ content, .text content ∈ (parse source).root.subtrees →
          '{' ∉ content.toList ∧ '\\' ∉ content.toList) →
            helpersIn emission.code = writtenMustaches 0 (strands (parse source).root) := by
  intro h
  have hroot : (parse closerAsValue).root =
      .root [.value ⟨"Var", .read "name=\"/if\"", "name=\"/if\""⟩] := by cbv
  have hnoText : ∀ content, .text content ∉ (parse closerAsValue).root.subtrees := by
    simp [hroot, Node.subtrees, Node.subtreesList]
  have hcode := h closerAsValue (Compiler.permissive registry [closerAsValue]) rfl
    fun content hmem => absurd hmem (hnoText content)
  have hfound : helpersIn (Compiler.permissive registry [closerAsValue]).code =
      [⟨0, "/if".toList⟩] := by cbv
  have hwritten : written 0 (strands (parse closerAsValue).root) = [] := by cbv
  rw [hfound, writtenMustaches, hwritten] at hcode
  cases hcode

end LayeredTags.CoreTags
