import LayeredTags.Proofs.Token.Spelling
import Mathlib.Data.List.Chain

/-!
# The split of a source into tokens

A source is split into texts and markers, each with the characters that it spans. Markers are found
as early as possible: none begins inside a text.

* `IsSplit`: the rules of a split, said of its spans.
* `pieces`: the split that the lexer makes, `isSplit_pieces`.
* `IsSplit.pieces_eq`: there is no other one.
* `tokenize_eq_iff`: the tokens of a source are those of its split.

Both directions follow the lexer with the text that it has read but not emitted yet. That no marker
begins in this text, whatever of the source follows it, is the invariant of
`isSplit_piecesFrom`.
-/

namespace LayeredTags

/-- A token and the characters that it spans. -/
structure Piece where
  token : Token
  span : List Char

namespace Piece

/-- A text spans itself. -/
def ofText (content : List Char) : Piece := ⟨.text (String.ofList content), content⟩

structure IsText (p : Piece) : Prop where
  nonempty : p.span ≠ []
  token_eq : p.token = .text (String.ofList p.span)

/-- A marker that is short enough. -/
structure IsMarker (p : Piece) : Prop where
  spells : Spells p.token p.span
  short : (String.ofList p.span).utf8ByteSize ≤ markerLimit

theorem IsMarker.token_ne_text {p : Piece} (h : p.IsMarker) (content : String) :
    p.token ≠ .text content := by
  intro htext
  have hspells := h.spells
  rw [htext] at hspells
  cases hspells

theorem IsMarker.not_isText {p : Piece} (h : p.IsMarker) : ¬ p.IsText :=
  fun htext => h.token_ne_text _ htext.token_eq

theorem isText_ofText {content : List Char} (h : content ≠ []) : (ofText content).IsText :=
  ⟨h, rfl⟩

theorem IsText.eq_ofText {p : Piece} (h : p.IsText) : p = ofText p.span := by
  obtain ⟨token, span⟩ := p
  exact congrArg (Piece.mk · span) h.token_eq

end Piece

/-- No marker that is short enough stands at the start of a text. -/
def Unmarked (cs : List Char) : Prop :=
  ∀ p : Piece, p.IsMarker → ¬ p.span <+: cs

theorem Unmarked.mono {cs l : List Char} (h : Unmarked cs) (hl : l <+: cs) : Unmarked l :=
  fun p hp hspan => h p hp (hspan.trans hl)

theorem unmarked_iff {cs : List Char} : Unmarked cs ↔ markerAt? cs = none := by
  rw [Option.eq_none_iff_forall_ne_some]
  constructor
  · intro h m hm
    obtain ⟨hspells, hshort, hat⟩ := markerAt?_eq_some_iff.mp hm
    exact h ⟨m.token, m.span⟩ ⟨hspells, hshort⟩ hat
  · intro h p hp hat
    exact h ⟨p.token, p.span⟩ (markerAt?_eq_some_iff.mpr ⟨hp.spells, hp.short, hat⟩)

theorem markerAt?_append_of_isMarker {p : Piece} (hp : p.IsMarker) (rest : List Char) :
    markerAt? (p.span ++ rest) = some ⟨p.token, p.span⟩ :=
  markerAt?_eq_some_iff.mpr ⟨hp.spells, hp.short, List.prefix_append _ _⟩

/-- The rules of a split: the spans make up the source, each is that of a text or a marker, no two
texts are adjacent, and no marker begins inside a text. -/
structure IsSplit (source : List Char) (pieces : List Piece) : Prop where
  joined : pieces.flatMap Piece.span = source
  spelled : ∀ p ∈ pieces, p.IsText ∨ p.IsMarker
  separated : pieces.IsChain fun p q => ¬ (p.IsText ∧ q.IsText)
  unmarked : ∀ before p after, pieces = before ++ p :: after → p.IsText →
    ∀ u v, p.span = u ++ v → v ≠ [] → Unmarked (v ++ after.flatMap Piece.span)

/-! ## Splits piece by piece -/

namespace IsSplit

variable {source rest : List Char} {p : Piece} {ps qs : List Piece}

theorem nil : IsSplit [] [] where
  joined := rfl
  spelled _ hp := nomatch hp
  separated := .nil
  unmarked before p after h := by simp at h

theorem cons (hp : p.IsText ∨ p.IsMarker) (hnext : ∀ q ∈ ps.head?, ¬ (p.IsText ∧ q.IsText))
    (hunmarked : p.IsText → ∀ u v, p.span = u ++ v → v ≠ [] → Unmarked (v ++ rest))
    (h : IsSplit rest ps) : IsSplit (p.span ++ rest) (p :: ps) where
  joined := by rw [List.flatMap_cons, h.joined]
  spelled q hq := by
    rcases List.mem_cons.mp hq with rfl | hq
    · exact hp
    · exact h.spelled q hq
  separated := List.isChain_cons.mpr ⟨hnext, h.separated⟩
  unmarked before q after heq := by
    cases before with
    | nil =>
      obtain ⟨rfl, rfl⟩ := List.cons.inj heq
      rw [h.joined]
      exact hunmarked
    | cons first before => exact h.unmarked before q after (List.cons.inj heq).2

theorem cons_marker (hp : p.IsMarker) (h : IsSplit rest ps) : IsSplit (p.span ++ rest) (p :: ps) :=
  cons (.inr hp) (fun _ _ hboth => hp.not_isText hboth.1)
    (fun htext => absurd htext hp.not_isText) h

theorem cons_text (hp : p.IsText) (hnext : ∀ q ∈ ps.head?, ¬ q.IsText)
    (hunmarked : ∀ u v, p.span = u ++ v → v ≠ [] → Unmarked (v ++ rest)) (h : IsSplit rest ps) :
    IsSplit (p.span ++ rest) (p :: ps) :=
  cons (.inl hp) (fun q hq hboth => hnext q hq hboth.2) (fun _ => hunmarked) h

/-- The first pieces of a split are a split of what they span: what follows a text can only begin
markers, not take them away. -/
theorem of_append (h : IsSplit source (ps ++ qs)) : IsSplit (ps.flatMap Piece.span) ps where
  joined := rfl
  spelled p hp := h.spelled p (List.mem_append_left _ hp)
  separated := (List.isChain_append.mp h.separated).1
  unmarked before p after heq htext u v hv hne := by
    have hwhole : ps ++ qs = before ++ p :: (after ++ qs) := by
      rw [heq, List.append_assoc, List.cons_append]
    refine (h.unmarked before p _ hwhole htext u v hv hne).mono ?_
    rw [List.flatMap_append, ← List.append_assoc]
    exact List.prefix_append _ _

theorem tail (h : IsSplit source (p :: ps)) : IsSplit (ps.flatMap Piece.span) ps where
  joined := rfl
  spelled q hq := h.spelled q (List.mem_cons_of_mem _ hq)
  separated := (List.isChain_cons.mp h.separated).2
  unmarked before q after heq := h.unmarked (p :: before) q after (by rw [heq, List.cons_append])

theorem of_append_right (h : IsSplit source (ps ++ qs)) : IsSplit (qs.flatMap Piece.span) qs := by
  induction ps generalizing source with
  | nil =>
    obtain rfl := h.joined
    exact h
  | cons p ps ih => exact ih h.tail

end IsSplit

/-! ## The split that the lexer makes -/

/-- The text read so far, in reverse, unless it is empty. -/
def Piece.flush (text : List Char) : List Piece :=
  if text = [] then [] else [.ofText text.reverse]

/-- The pieces of a source, given the text before it in reverse. -/
def piecesFrom (text : List Char) : List Char → List Piece
  | [] => Piece.flush text
  | c :: rest =>
    match _h : markerAt? (c :: rest) with
    | some m =>
      Piece.flush text ++ ⟨m.token, m.span⟩ :: piecesFrom [] ((c :: rest).drop m.span.length)
    | none => piecesFrom (c :: text) rest
termination_by cs => cs.length
decreasing_by
  · exact length_drop_span_lt ‹_›
  · simp

def pieces (source : List Char) : List Piece :=
  piecesFrom [] source

theorem map_token_piecesFrom (text cs : List Char) :
    (piecesFrom text cs).map Piece.token = tokensFrom text cs := by
  have hflush : ∀ text, (Piece.flush text).map Piece.token = flushText text := by
    intro text
    rw [Piece.flush, flushText]
    split
    · rfl
    · rfl
  fun_induction piecesFrom text cs with
  | case1 text => rw [hflush, tokensFrom]
  | case2 text c rest m hm ih =>
    rw [tokensFrom]
    split
    · rename_i m' hm'
      obtain rfl := Option.some.inj (hm.symm.trans hm')
      rw [List.map_append, hflush, List.map_cons, ih]
    · rename_i hnone
      rw [hm] at hnone
      cases hnone
  | case3 text c rest hm ih =>
    rw [tokensFrom]
    split
    · rename_i m' hm'
      rw [hm] at hm'
      cases hm'
    · exact ih

theorem map_token_pieces (source : String) :
    (pieces source.toList).map Piece.token = tokenize source :=
  map_token_piecesFrom [] source.toList

/-- No marker begins in the text that has been read and not emitted, given what follows it. -/
def Pending (text rest : List Char) : Prop :=
  ∀ u v, text = u ++ v → v ≠ [] → Unmarked (v ++ rest)

theorem Pending.nil (rest : List Char) : Pending [] rest := by
  intro u v h hv
  exact absurd (List.append_eq_nil_iff.mp h.symm).2 hv

theorem Pending.concat {text rest : List Char} {c : Char} (h : Pending text (c :: rest))
    (hc : Unmarked (c :: rest)) : Pending (text ++ [c]) rest := by
  intro u v heq hv
  obtain ⟨w, d, rfl⟩ := List.eq_nil_or_concat' v |>.resolve_left hv
  rw [← List.append_assoc] at heq
  obtain ⟨htext, hd⟩ := List.append_inj' heq rfl
  cases hd
  rw [List.append_assoc]
  by_cases hw : w = []
  · rw [hw]
    exact hc
  · exact h u w htext hw

theorem isSplit_flush {text rest : List Char} {ps : List Piece} (htext : Pending text.reverse rest)
    (hnext : ∀ q ∈ ps.head?, ¬ q.IsText) (h : IsSplit rest ps) :
    IsSplit (text.reverse ++ rest) (Piece.flush text ++ ps) := by
  rw [Piece.flush]
  split
  · rename_i hnil
    rw [hnil]
    exact h
  · rename_i hne
    exact h.cons_text (Piece.isText_ofText (mt List.reverse_eq_nil_iff.mp hne)) hnext htext

theorem isSplit_piecesFrom (text cs : List Char) (htext : Pending text.reverse cs) :
    IsSplit (text.reverse ++ cs) (piecesFrom text cs) := by
  fun_induction piecesFrom text cs with
  | case1 text =>
    have h := isSplit_flush htext (fun _ hq => by cases hq) IsSplit.nil
    rwa [List.append_nil (Piece.flush text)] at h
  | case2 text c rest m hm ih =>
    obtain ⟨hspells, hshort, tail, htail⟩ := markerAt?_eq_some_iff.mp hm
    have hmarker : Piece.IsMarker ⟨m.token, m.span⟩ := ⟨hspells, hshort⟩
    have hsplit := (ih (Pending.nil _)).cons_marker hmarker
    have hsource : m.span ++ (c :: rest).drop m.span.length = c :: rest := by
      rw [← htail, List.drop_left]
    rw [List.reverse_nil, List.nil_append] at hsplit
    simp only [hsource] at hsplit
    apply isSplit_flush htext ?_ hsplit
    intro q hq
    cases hq
    exact hmarker.not_isText
  | case3 text c rest hm ih =>
    have h := ih (by
      rw [List.reverse_cons]
      exact htext.concat (unmarked_iff.mpr hm))
    rwa [List.reverse_cons, List.append_assoc] at h

theorem isSplit_pieces (source : List Char) : IsSplit source (pieces source) :=
  isSplit_piecesFrom [] source (Pending.nil source)

/-! ## Uniqueness -/

theorem piecesFrom_append_of_pending {content rest : List Char} (h : Pending content rest)
    (text : List Char) :
    piecesFrom text (content ++ rest) = piecesFrom (content.reverse ++ text) rest := by
  induction content generalizing text with
  | nil => rfl
  | cons c content ih =>
    have hnone : markerAt? (c :: (content ++ rest)) = none :=
      unmarked_iff.mp (h [] (c :: content) rfl (List.cons_ne_nil c content))
    have htail : Pending content rest := by
      intro u v heq hv
      exact h (c :: u) v (by rw [heq, List.cons_append]) hv
    rw [List.cons_append, piecesFrom]
    split
    · rename_i hsome
      rw [hnone] at hsome
      cases hsome
    · rw [ih htail, List.reverse_cons, List.append_assoc]
      rfl

theorem piecesFrom_append_of_isMarker {p : Piece} (hp : p.IsMarker) (text rest : List Char) :
    piecesFrom text (p.span ++ rest) = Piece.flush text ++ p :: pieces rest := by
  have hm := markerAt?_append_of_isMarker hp rest
  have hrest : (p.span ++ rest).drop p.span.length = rest := List.drop_left
  generalize p.span ++ rest = cs at hm hrest
  cases cs with
  | nil => cases hm
  | cons c cs =>
    rw [piecesFrom]
    split
    · rename_i m hm'
      obtain rfl := Option.some.inj (hm.symm.trans hm')
      simp only [hrest]
      rfl
    · rename_i hnone
      rw [hm] at hnone
      cases hnone

namespace IsSplit

variable {source rest : List Char} {p : Piece} {ps : List Piece}

theorem piecesFrom_eq_flush_append (h : IsSplit rest ps) (hnext : ∀ q ∈ ps.head?, ¬ q.IsText)
    (text : List Char) : piecesFrom text rest = Piece.flush text ++ pieces rest := by
  cases ps with
  | nil =>
    obtain rfl : [] = rest := h.joined
    rw [pieces, piecesFrom, piecesFrom]
    exact (List.append_nil _).symm
  | cons q qs =>
    have hq : q.IsMarker := (h.spelled q List.mem_cons_self).resolve_left (hnext q rfl)
    obtain rfl := h.joined
    rw [List.flatMap_cons, pieces, piecesFrom_append_of_isMarker hq,
      piecesFrom_append_of_isMarker hq]
    rfl

theorem pieces_eq (h : IsSplit source ps) : pieces source = ps := by
  induction ps generalizing source with
  | nil =>
    obtain rfl : [] = source := h.joined
    rw [pieces, piecesFrom]
    rfl
  | cons p ps ih =>
    have hrest : pieces (ps.flatMap Piece.span) = ps := ih h.tail
    obtain rfl : p.span ++ ps.flatMap Piece.span = source := h.joined
    rcases h.spelled p List.mem_cons_self with htext | hmarker
    · have hnext : ∀ q ∈ ps.head?, ¬ q.IsText := fun q hq hqtext =>
        (List.isChain_cons.mp h.separated).1 q hq ⟨htext, hqtext⟩
      rw [pieces, piecesFrom_append_of_pending (h.unmarked [] p ps rfl htext),
        h.tail.piecesFrom_eq_flush_append hnext, hrest, List.append_nil, Piece.flush,
        if_neg (mt List.reverse_eq_nil_iff.mp htext.nonempty), List.reverse_reverse,
        ← htext.eq_ofText]
      rfl
    · rw [pieces, piecesFrom_append_of_isMarker hmarker, hrest]
      rfl

theorem tokenize_eq {source : String} (h : IsSplit source.toList ps) :
    tokenize source = ps.map Piece.token := by
  rw [← map_token_pieces, h.pieces_eq]

end IsSplit

/-- **The tokens of a source are those of its split.** Every source has a split by the rules of
`IsSplit`, and its tokens are those that the lexer finds. -/
theorem tokenize_eq_iff (source : String) (tokens : List Token) :
    tokenize source = tokens ↔
      ∃ pieces, pieces.map Piece.token = tokens ∧ IsSplit source.toList pieces := by
  constructor
  · rintro rfl
    exact ⟨pieces source.toList, map_token_pieces source, isSplit_pieces source.toList⟩
  · rintro ⟨pieces, rfl, hsplit⟩
    exact hsplit.tokenize_eq

end LayeredTags
