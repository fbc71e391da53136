import LayeredTags.Proofs.Token.Split

/-!
# Cutting a source between its tokens

* `IsMarkerEdge`: a marker of the source starts or ends at a position.
* `IsSplit.pieces_halves`: both sides of a cut between two pieces keep their pieces.
* `IsSplit.prefix_of_map_token`: a start of a source whose tokens are the first ones of the source
  consists of the first pieces of the source.
* `tokenize_append_iff`: the tokens of both sides of a cut are those of the source if and only if
  the cut is at the edge of a marker or at an end of the source.

A cut shortens the window in which an earlier marker is looked for, and it takes away what a text in
front of it is followed by. Neither matters to the rules of a split: a marker is spelled by its span
alone, and where less follows fewer markers begin.
-/

namespace LayeredTags

/-- A marker of the source starts or ends at a position: what stands in front of it is what the
pieces before the marker span, without or with the marker. -/
def IsMarkerEdge {source : String} (p : source.Pos) : Prop :=
  ∃ before marker after, IsSplit source.toList (before ++ marker :: after) ∧ marker.IsMarker ∧
    ((source.sliceTo p).copy.toList = before.flatMap Piece.span ∨
      (source.sliceTo p).copy.toList = (before ++ [marker]).flatMap Piece.span)

/-! ## Cuts between two pieces -/

theorem IsSplit.pieces_halves {left right : List Char} {ps qs : List Piece}
    (h : IsSplit (left ++ right) (ps ++ qs)) (hleft : left = ps.flatMap Piece.span) :
    pieces left = ps ∧ pieces right = qs := by
  have hright : right = qs.flatMap Piece.span := by
    have hjoined := h.joined
    rw [List.flatMap_append, ← hleft] at hjoined
    exact (List.append_cancel_left hjoined).symm
  rw [hleft, hright]
  exact ⟨h.of_append.pieces_eq, h.of_append_right.pieces_eq⟩

/-! ## Cuts through a piece -/

/-- At the start of a source a token has one span. The token alone does not tell it where blanks
are trimmed off the attributes, but only one marker stands at the start of a source. -/
theorem Piece.eq_of_token_eq {source : List Char} {p q : Piece} (hp : p.IsText ∨ p.IsMarker)
    (hq : q.IsText ∨ q.IsMarker) (hpat : p.span <+: source) (hqat : q.span <+: source)
    (htoken : p.token = q.token) : p = q := by
  rcases hp with hp | hp
  · have hq : q.IsText :=
      hq.resolve_right fun hq => hq.token_ne_text _ (htoken.symm.trans hp.token_eq)
    rw [hp.token_eq, hq.token_eq, Token.text.injEq] at htoken
    rw [hp.eq_ofText, hq.eq_ofText, String.ofList_injective htoken]
  · have hq : q.IsMarker :=
      hq.resolve_left fun hq => hp.token_ne_text _ (htoken.trans hq.token_eq)
    have hmarker : (⟨p.token, p.span⟩ : Marker) = ⟨q.token, q.span⟩ := by
      apply Option.some.inj
      rw [← markerAt?_eq_some_iff.mpr ⟨hp.spells, hp.short, hpat⟩,
        ← markerAt?_eq_some_iff.mpr ⟨hq.spells, hq.short, hqat⟩]
    exact congrArg₂ Piece.mk htoken (Marker.mk.inj hmarker).2

namespace IsSplit

variable {source left : List Char} {ps qs : List Piece}

/-- Where the tokens of a start of a source are the first tokens of the source, its pieces are the
first pieces of the source. -/
theorem prefix_of_map_token (hleft : IsSplit left qs) (h : IsSplit source ps)
    (hat : left <+: source) (htokens : qs.map Piece.token <+: ps.map Piece.token) : qs <+: ps := by
  induction qs generalizing source left ps with
  | nil => exact List.nil_prefix
  | cons q qs ih =>
    cases ps with
    | nil => exact absurd (List.prefix_nil.mp htokens) (List.cons_ne_nil _ _)
    | cons p ps =>
      rw [List.map_cons, List.map_cons, List.cons_prefix_cons] at htokens
      obtain rfl := hleft.joined
      obtain rfl := h.joined
      have hspan : q.span <+: (p :: ps).flatMap Piece.span :=
        (List.prefix_append q.span _).trans hat
      obtain rfl : q = p :=
        Piece.eq_of_token_eq (hleft.spelled q List.mem_cons_self) (h.spelled p List.mem_cons_self)
          hspan (List.prefix_append p.span _) htokens.1
      have hrest : qs.flatMap Piece.span <+: ps.flatMap Piece.span :=
        (List.prefix_append_right_inj q.span).mp hat
      exact List.cons_prefix_cons.mpr ⟨rfl, ih hleft.tail h.tail hrest htokens.2⟩

end IsSplit

/-! ## Positions of a source -/

variable {source : String} {p : source.Pos}

theorem toList_eq_append (p : source.Pos) :
    source.toList = (source.sliceTo p).copy.toList ++ (source.sliceFrom p).copy.toList := by
  rw [← String.toList_append, ← p.splits.eq_append]

theorem isMarkerEdge_of_isSplit {before after : List Piece} {first second : Piece}
    (h : IsSplit source.toList (before ++ [first] ++ second :: after))
    (hp : (source.sliceTo p).copy.toList = (before ++ [first]).flatMap Piece.span) :
    IsMarkerEdge p := by
  have hmeet : ¬ (first.IsText ∧ second.IsText) :=
    (List.isChain_append.mp h.separated).2.2 first (by simp) second rfl
  rcases h.spelled second (by simp) with hsecond | hsecond
  · have hfirst : first.IsMarker :=
      (h.spelled first (by simp)).resolve_left fun hfirst => hmeet ⟨hfirst, hsecond⟩
    rw [List.append_assoc, List.singleton_append] at h
    exact ⟨before, first, second :: after, h, hfirst, .inr hp⟩
  · exact ⟨before ++ [first], second, after, h, hsecond, .inl hp⟩

theorem exists_isSplit_iff :
    (∃ ps qs, IsSplit source.toList (ps ++ qs) ∧
        (source.sliceTo p).copy.toList = ps.flatMap Piece.span) ↔
      p = source.startPos ∨ p = source.endPos ∨ IsMarkerEdge p := by
  rw [p.splits.eq_startPos_iff, p.splits.eq_endPos_iff]
  constructor
  · rintro ⟨ps, qs, hsplit, hp⟩
    rcases List.eq_nil_or_concat' ps with rfl | ⟨before, first, rfl⟩
    · exact .inl (String.toList_eq_nil_iff.mp hp)
    · cases qs with
      | nil =>
        have hjoined := hsplit.joined
        rw [List.append_nil, ← hp, toList_eq_append p, List.self_eq_append_right] at hjoined
        exact .inr (.inl (String.toList_eq_nil_iff.mp hjoined))
      | cons second after => exact .inr (.inr (isMarkerEdge_of_isSplit hsplit hp))
  · rintro (hp | hp | ⟨before, marker, after, hsplit, -, hp | hp⟩)
    · exact ⟨[], pieces source.toList, isSplit_pieces source.toList, by rw [hp]; rfl⟩
    · refine ⟨pieces source.toList, [], ?_, ?_⟩
      · rw [List.append_nil]
        exact isSplit_pieces source.toList
      · rw [(isSplit_pieces source.toList).joined, toList_eq_append p, hp, String.toList_empty,
          List.append_nil]
    · exact ⟨before, marker :: after, hsplit, hp⟩
    · refine ⟨before ++ [marker], after, ?_, hp⟩
      rwa [List.append_assoc, List.singleton_append]

/-- **Tokenizing commutes with cutting at the edges of markers.** The tokens in front of a position
and those behind it are the tokens of the source if and only if a marker starts or ends there or
the position is an end of the source. -/
theorem tokenize_append_iff (source : String) (p : source.Pos) :
    tokenize (source.sliceTo p).copy ++ tokenize (source.sliceFrom p).copy = tokenize source ↔
      p = source.startPos ∨ p = source.endPos ∨ IsMarkerEdge p := by
  rw [← exists_isSplit_iff, ← map_token_pieces, ← map_token_pieces, ← map_token_pieces]
  constructor
  · -- the pieces in front of the cut are the first ones of the source: the cut goes through none
    intro htokens
    have hleft := isSplit_pieces (source.sliceTo p).copy.toList
    obtain ⟨after, hafter⟩ : pieces (source.sliceTo p).copy.toList <+: pieces source.toList :=
      hleft.prefix_of_map_token (isSplit_pieces source.toList) ⟨_, (toList_eq_append p).symm⟩
        ⟨_, htokens⟩
    refine ⟨_, after, ?_, hleft.joined.symm⟩
    rw [hafter]
    exact isSplit_pieces source.toList
  · rintro ⟨ps, qs, hsplit, hp⟩
    rw [hsplit.pieces_eq]
    rw [toList_eq_append p] at hsplit
    obtain ⟨hleft, hright⟩ := hsplit.pieces_halves hp
    rw [hleft, hright, List.map_append]

end LayeredTags
