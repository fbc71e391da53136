import LayeredTags.Proofs.Node.Builder
import LayeredTags.Proofs.Token.Split

/-!
# Cutting a source before its unclosed blocks

* `openMarks`: the blocks that stay open in a source, each with what stands before its open marker.
* `cut`: the source before the open marker of the outermost of them.
* `exists_cut_pieces`: a cut source has the pieces of the source that stand before that marker.
* `exists_diagnostics_eq`: the blocks that stay open are those reported as unclosed.
* `exists_parse_root_cut`, `openMarks_cut`: the tree of a cut source lacks the unclosed block only,
  and no block stays open in it.

A block that stays open was opened where no other block was open, and from there on nothing was
added below the root. This is kept piece by piece as `MarksAgree`.
-/

namespace LayeredTags

/-- A block that is open behind a part of a source: its name and what stands before its open
marker. -/
structure OpenMark where
  name : String
  before : List Char

/-- A part of a source that has been read and the blocks that are open behind it, the innermost
first. -/
structure Reading where
  past : List Char
  marks : List OpenMark

namespace Reading

def step (r : Reading) (p : Piece) : Reading where
  past := r.past ++ p.span
  marks :=
    match p.token with
    | .opening name _ => ⟨name, r.past⟩ :: r.marks
    | .closing name _ =>
      if (r.marks.map OpenMark.name).head? = some name then r.marks.tail else r.marks
    | .text _ | .value _ _ => r.marks

def ofPieces (ps : List Piece) : Reading :=
  ps.foldl step ⟨[], []⟩

theorem ofPieces_concat (ps : List Piece) (p : Piece) :
    ofPieces (ps ++ [p]) = (ofPieces ps).step p := by
  rw [ofPieces, List.foldl_append]
  rfl

theorem names_step (r : Reading) (p : Piece) :
    (r.step p).marks.map OpenMark.name = p.token.openNames (r.marks.map OpenMark.name) := by
  obtain ⟨token, span⟩ := p
  cases token with
  | text content => rfl
  | value name raw => rfl
  | opening name raw => rfl
  | closing name source =>
    rw [step, Token.openNames]
    dsimp only
    split
    · rw [List.map_tail]
    · rfl

theorem mem_getLast?_step {r : Reading} {p : Piece} {mark : OpenMark}
    (h : mark ∈ (r.step p).marks.getLast?) :
    mark ∈ r.marks.getLast? ∨
      r.marks = [] ∧ (∃ raw, p.token = .opening mark.name raw) ∧ mark.before = r.past := by
  obtain ⟨token, span⟩ := p
  cases token with
  | text content => exact .inl h
  | value name raw => exact .inl h
  | opening name raw =>
    rw [step, List.getLast?_cons] at h
    cases hlast : r.marks.getLast? with
    | none =>
      rw [hlast] at h
      cases h
      exact .inr ⟨List.getLast?_eq_none_iff.mp hlast, ⟨raw, rfl⟩, rfl⟩
    | some outer =>
      rw [hlast] at h
      exact .inl h
  | closing name source =>
    rw [step] at h
    dsimp only at h
    split at h
    · left
      cases hmarks : r.marks with
      | nil =>
        rw [hmarks] at h
        cases h
      | cons first rest =>
        rw [hmarks, List.tail_cons] at h
        rw [List.getLast?_cons, h]
        rfl
    · exact .inl h

end Reading

/-- The blocks of a source that stay open, the innermost first. -/
def openMarks (source : String) : List OpenMark :=
  (Reading.ofPieces (pieces source.toList)).marks

/-- The source before the open marker of the outermost block that stays open, or the whole source
if there is none. -/
def cut (source : String) : String :=
  match (openMarks source).getLast? with
  | none => source
  | some mark => String.ofList mark.before

/-- The tree under construction behind some pieces. -/
def builderOf (ps : List Piece) : TreeBuilder :=
  .read (ps.map Piece.token)

theorem builderOf_concat (ps : List Piece) (p : Piece) :
    builderOf (ps ++ [p]) = (builderOf ps).step p.token := by
  rw [builderOf, List.map_append]
  exact TreeBuilder.read_concat _ _

/-- The marks of the open blocks agree with the tree under construction. Where the outermost one
was opened no block was open, and nothing has been added below the root since. -/
structure MarksAgree (ps : List Piece) : Prop where
  past_eq : (Reading.ofPieces ps).past = ps.flatMap Piece.span
  names_eq : (Reading.ofPieces ps).marks.map OpenMark.name = (builderOf ps).names
  outermost : ∀ mark ∈ (Reading.ofPieces ps).marks.getLast?, ∃ before p after raw,
    ps = before ++ p :: after ∧ p.token = .opening mark.name raw ∧
      mark.before = before.flatMap Piece.span ∧ (builderOf before).names = [] ∧
      (builderOf before).reversed = (builderOf ps).reversed

theorem marksAgree (ps : List Piece) : MarksAgree ps := by
  induction ps using List.reverseRecOn with
  | nil => exact ⟨rfl, rfl, fun _ h => nomatch h⟩
  | append_singleton ps p ih =>
    have hnames : (Reading.ofPieces (ps ++ [p])).marks.map OpenMark.name =
        (builderOf (ps ++ [p])).names := by
      rw [Reading.ofPieces_concat, builderOf_concat, Reading.names_step, TreeBuilder.names_step,
        ih.names_eq]
    refine ⟨?_, hnames, ?_⟩
    · rw [Reading.ofPieces_concat, List.flatMap_append, ← ih.past_eq]
      simp [Reading.step]
    · intro mark hmark
      have hopen : (builderOf (ps ++ [p])).names ≠ [] := by
        rw [← hnames]
        intro hnil
        rw [List.map_eq_nil_iff.mp hnil] at hmark
        cases hmark
      have hroot : (builderOf (ps ++ [p])).reversed = (builderOf ps).reversed := by
        rw [builderOf_concat] at hopen ⊢
        exact TreeBuilder.reversed_step hopen
      rw [hroot]
      rw [Reading.ofPieces_concat] at hmark
      rcases Reading.mem_getLast?_step hmark with hmark | ⟨hnil, ⟨raw, htoken⟩, hbefore⟩
      · obtain ⟨before, q, after, raw, hps, hrest⟩ := ih.outermost mark hmark
        refine ⟨before, q, after ++ [p], raw, ?_, hrest⟩
        rw [hps, List.append_assoc, List.cons_append]
      · refine ⟨ps, p, [], raw, rfl, htoken, hbefore.trans ih.past_eq, ?_, rfl⟩
        rw [← ih.names_eq, hnil, List.map_nil]

/-! ## The pieces and the tree of a cut source -/

/-- A cut source has the first pieces of the source. Where no block stays open these are all of
them; else the next piece is the open marker of the outermost block that does. -/
theorem exists_cut_pieces (source : String) :
    ∃ after, pieces source.toList = pieces (cut source).toList ++ after ∧
      (builderOf (pieces (cut source).toList)).names = [] ∧
      (builderOf (pieces (cut source).toList)).reversed =
        (builderOf (pieces source.toList)).reversed ∧
      (after = [] ∨ ∃ p rest name raw, after = p :: rest ∧ p.token = .opening name raw ∧
        (builderOf (pieces source.toList)).names.getLast? = some name) := by
  have hagree := marksAgree (pieces source.toList)
  cases hlast : (Reading.ofPieces (pieces source.toList)).marks.getLast? with
  | none =>
    have hcut : cut source = source := by
      rw [cut, openMarks, hlast]
    have hnames : (builderOf (pieces source.toList)).names = [] := by
      rw [← hagree.names_eq, List.getLast?_eq_none_iff.mp hlast, List.map_nil]
    rw [hcut]
    exact ⟨[], (List.append_nil _).symm, hnames, rfl, .inl rfl⟩
  | some mark =>
    obtain ⟨before, p, after, raw, hps, htoken, hbefore, hnames, hreversed⟩ :=
      hagree.outermost mark hlast
    have hcut : (cut source).toList = before.flatMap Piece.span := by
      rw [cut, openMarks, hlast, ← hbefore]
      exact String.toList_ofList
    have hpieces : pieces (cut source).toList = before := by
      rw [hcut]
      exact (hps ▸ isSplit_pieces source.toList).of_append.pieces_eq
    have hname : (builderOf (pieces source.toList)).names.getLast? = some mark.name := by
      rw [← hagree.names_eq, List.getLast?_map, hlast, Option.map_some]
    rw [hpieces]
    exact ⟨p :: after, hps, hnames, hreversed, .inr ⟨p, after, mark.name, raw, rfl, htoken, hname⟩⟩

theorem parse_eq (source : String) : parse source = (builderOf (pieces source.toList)).finish := by
  rw [parse, ← map_token_pieces]
  rfl

theorem exists_diagnostics_eq (source : String) :
    ∃ mistakes, (∀ d ∈ mistakes, d.kind = .mismatchedCloseTag) ∧
      (parse source).diagnostics =
        mistakes ++ (openMarks source).map fun mark => ⟨.unclosedBlock, mark.name⟩ := by
  have hnames := (marksAgree (pieces source.toList)).names_eq
  refine ⟨(builderOf (pieces source.toList)).mistakes.reverse, ?_, ?_⟩
  · intro d hd
    exact TreeBuilder.kind_of_mem_mistakes_read (List.mem_reverse.mp hd)
  · have hmarks := congrArg (List.map fun name => (⟨.unclosedBlock, name⟩ : Diagnostic)) hnames
    rw [TreeBuilder.names, List.map_map, List.map_map] at hmarks
    rw [parse_eq]
    exact congrArg _ hmarks.symm

theorem exists_parse_root_cut (source : String) :
    ∃ children unclosed, (parse (cut source)).root = .root children ∧
      (parse source).root = .root (children ++ unclosed) ∧
      (unclosed = [] ∨ ∃ tag inner, unclosed = [.block tag false inner]) := by
  obtain ⟨after, -, hnames, hreversed, -⟩ := exists_cut_pieces source
  rw [parse_eq, parse_eq, TreeBuilder.finish_of_names_eq_nil hnames, hreversed]
  by_cases hopen : (builderOf (pieces source.toList)).names = []
  · exact ⟨_, [], rfl, by rw [TreeBuilder.finish_of_names_eq_nil hopen, List.append_nil], .inl rfl⟩
  · obtain ⟨tag, inner, hroot⟩ := TreeBuilder.exists_finish_root hopen
    exact ⟨_, _, rfl, hroot, .inr ⟨tag, inner, rfl⟩⟩

theorem openMarks_cut (source : String) : openMarks (cut source) = [] := by
  obtain ⟨after, -, hnames, -, -⟩ := exists_cut_pieces source
  rw [← (marksAgree _).names_eq] at hnames
  exact List.map_eq_nil_iff.mp hnames

theorem kind_of_mem_diagnostics_cut {source : String} {d : Diagnostic}
    (h : d ∈ (parse (cut source)).diagnostics) : d.kind ≠ .unclosedBlock := by
  obtain ⟨mistakes, hmistakes, hdiagnostics⟩ := exists_diagnostics_eq (cut source)
  rw [hdiagnostics, openMarks_cut, List.map_nil, List.append_nil] at h
  rw [hmistakes d h]
  decide

end LayeredTags
