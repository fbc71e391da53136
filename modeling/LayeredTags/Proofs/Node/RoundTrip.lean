import LayeredTags.Proofs.Node.Printer

/-!
# Reading a printed tree

* `Piece.pending_of_isSplit`: a text without the start of a marker stays a text, whatever split
  follows it.
* `Node.isSplit_piecesList`: the pieces that nodes are printed as are a split of their text.
* `Node.foldl_step_piecesList`: their tokens add the nodes to the tree under construction.
* `parse_print`: parsing undoes printing.

The split is built from behind, with the pieces that follow as a parameter, so that the children of
a block are split in front of its close marker.
-/

namespace LayeredTags

/-! ## Texts -/

/-- No marker start overlaps another one: it cannot begin in a text and end in a marker. -/
theorem not_overlap {start other : List Char} (hstart : start ∈ markerStarts)
    (hother : other ∈ markerStarts) {k : Nat} (hpos : 0 < k) (hlt : k < start.length) :
    ¬ start.drop k <+: other ∧ ¬ other <+: start.drop k := by
  have hall : ∀ s ∈ markerStarts, ∀ t ∈ markerStarts, ∀ i < s.length, 0 < i →
      ¬ s.drop i <+: t ∧ ¬ t <+: s.drop i := by decide
  exact hall start hstart other hother k hlt hpos

theorem Piece.pending_of_isSplit {content rest : List Char} {ps : List Piece}
    (hcontent : ∀ start ∈ markerStarts, ¬ start <:+: content) (h : IsSplit rest ps)
    (hnext : ∀ q ∈ ps.head?, ¬ q.IsText) : Pending content rest := by
  intro u v hv hne p hp hat
  obtain ⟨start, hmem, hstart⟩ := hp.spells.exists_start
  have hstart : start <+: v ++ rest := hstart.trans hat
  by_cases hlength : start.length ≤ v.length
  · have hinside : start <+: v :=
      List.prefix_of_prefix_length_le hstart (List.prefix_append v rest) hlength
    refine hcontent start hmem (hinside.isInfix.trans ?_)
    rw [hv]
    exact (List.suffix_append u v).isInfix
  · -- the start would have to end in the marker behind the text
    have hlt : v.length < start.length := Nat.lt_of_not_le hlength
    have hover : start.drop v.length <+: rest := by
      obtain ⟨tail, htail⟩ := hstart
      have hdrop := congrArg (List.drop v.length) htail
      rw [List.drop_left, List.drop_append_of_le_length hlt.le] at hdrop
      exact ⟨tail, hdrop⟩
    cases ps with
    | nil =>
      obtain rfl : [] = rest := h.joined
      have hnil := List.drop_eq_nil_iff.mp (List.prefix_nil.mp hover)
      omega
    | cons q qs =>
      have hq : q.IsMarker := (h.spelled q List.mem_cons_self).resolve_left (hnext q rfl)
      obtain ⟨other, hother, hspan⟩ := hq.spells.exists_start
      have hrest : other <+: rest := by
        rw [← h.joined, List.flatMap_cons]
        exact hspan.trans (List.prefix_append _ _)
      have hapart := not_overlap hmem hother (List.length_pos_of_ne_nil hne) hlt
      rcases List.prefix_or_prefix_of_prefix hover hrest with hboth | hboth
      · exact hapart.1 hboth
      · exact hapart.2 hboth

namespace Node

/-! ## The split of a printed tree -/

theorem isMarker_of_spells {token : Token} {span : String} (h : Spells token span.toList)
    (hshort : span.utf8ByteSize ≤ markerLimit) : Piece.IsMarker ⟨token, span.toList⟩ :=
  ⟨h, by rwa [String.ofList_toList]⟩

theorem not_isText_head?_pieces {node : Node} {ps : List Piece} (h : node.IsPrintable)
    (htext : node.isText = false) : ∀ q ∈ (node.pieces ++ ps).head?, ¬ q.IsText := by
  intro q hq hqtext
  have htoken := hqtext.token_eq
  cases node with
  | text content => cases htext
  | root children => exact h
  | block | value | parent =>
    rw [pieces] at hq
    cases hq
    cases htoken

mutual

theorem isSplit_pieces {rest : List Char} {ps : List Piece} : ∀ node : Node, node.IsPrintable →
    IsSplit rest ps → (node.isText = true → ∀ q ∈ ps.head?, ¬ q.IsText) →
    IsSplit (node.print.toList ++ rest) (node.pieces ++ ps)
  | root _, hnode, _, _ => by
    rw [IsPrintable] at hnode
    exact hnode.elim
  | text content, hnode, hsplit, hnext => by
    rw [IsPrintable] at hnode
    have hne : content.toList ≠ [] := by
      intro hnil
      exact hnode.1 (String.toList_eq_nil_iff.mp hnil)
    rw [print, pieces]
    exact hsplit.cons_text (Piece.isText_ofText hne) (hnext rfl)
      (Piece.pending_of_isSplit hnode.2 hsplit (hnext rfl))
  | block tag closed children, hnode, hsplit, _ => by
    rw [IsPrintable] at hnode
    obtain ⟨-, htag, hopen, hclose, hchildren⟩ := hnode
    have hcloses := isMarker_of_spells (Tag.spells_closing htag.isName) hclose
    have hopens := isMarker_of_spells (Tag.spells_opening htag) hopen
    have hinner := isSplit_piecesList children hchildren (hsplit.cons_marker hcloses)
      fun _ _ _ q hq => by
        cases hq
        exact hcloses.not_isText
    have houter := hinner.cons_marker hopens
    rw [print, pieces, String.toList_append, String.toList_append]
    simpa only [List.append_assoc, List.cons_append, List.nil_append] using houter
  | value tag, hnode, hsplit, _ => by
    rw [IsPrintable] at hnode
    obtain ⟨-, htag, hlast, hshort⟩ := hnode
    rw [print, pieces]
    exact hsplit.cons_marker (isMarker_of_spells (Tag.spells_value htag hlast) hshort)
  | parent tag, hnode, hsplit, _ => by
    rw [IsPrintable] at hnode
    obtain ⟨-, htag, hlast, hshort⟩ := hnode
    rw [print, pieces]
    exact hsplit.cons_marker (isMarker_of_spells (Tag.spells_value htag hlast) hshort)

theorem isSplit_piecesList {rest : List Char} {ps : List Piece} : ∀ nodes : List Node,
    AllPrintable nodes → IsSplit rest ps →
    (∀ last ∈ nodes.getLast?, last.isText = true → ∀ q ∈ ps.head?, ¬ q.IsText) →
    IsSplit ((printList nodes).toList ++ rest) (piecesList nodes ++ ps)
  | [], _, hsplit, _ => hsplit
  | node :: others, hnodes, hsplit, hnext => by
    rw [AllPrintable] at hnodes
    obtain ⟨hnode, happart, hothers⟩ := hnodes
    have hrest := isSplit_piecesList others hothers hsplit fun last hlast => by
      apply hnext last
      rw [List.getLast?_cons, hlast]
      rfl
    have hfirst := isSplit_pieces node hnode hrest fun htext => by
      cases others with
      | nil => exact hnext node rfl htext
      | cons next others =>
        rw [AllPrintable] at hothers
        rw [piecesList, List.append_assoc]
        apply not_isText_head?_pieces hothers.1
        exact Bool.eq_false_of_not_eq_true fun hboth => happart next rfl ⟨htext, hboth⟩
    rw [printList, piecesList, String.toList_append]
    simpa only [List.append_assoc] using hfirst

end

/-! ## Reading the printed tokens -/

mutual

theorem foldl_step_pieces : ∀ (node : Node) (b : TreeBuilder), node.IsPrintable →
    (node.isText = true → ∀ last ∈ b.current.head?, last.isText = false) →
    (node.pieces.map Piece.token).foldl TreeBuilder.step b = b.update (node :: ·)
  | root _, _, hnode, _ => by
    rw [IsPrintable] at hnode
    exact hnode.elim
  | text content, b, _, hlast => by
    rw [pieces]
    show b.update (appendText (String.ofList content.toList)) = _
    rw [String.ofList_toList]
    exact TreeBuilder.update_congr (appendText_of_head? (hlast rfl))
  | block tag closed children, b, hnode, _ => by
    rw [IsPrintable] at hnode
    obtain ⟨rfl, htag, -, -, hchildren⟩ := hnode
    have htagEq : (⟨tag.name, .read tag.raw, tag.raw⟩ : Tag) = tag := by
      rw [← htag.attributes_eq]
    have hinner := foldl_step_piecesList children
      { b with opened := ⟨tag, []⟩ :: b.opened } hchildren fun _ _ _ _ hlast => nomatch hlast
    have hclosed := b.step_closing_update tag tag.closeMarker (children.reverse ++ ·)
    rw [List.append_nil, List.reverse_reverse] at hclosed
    rw [pieces, List.map_cons, List.map_append, List.foldl_cons, List.foldl_append,
      TreeBuilder.step, htagEq, hinner]
    exact hclosed
  | value tag, b, hnode, _ => by
    rw [IsPrintable] at hnode
    obtain ⟨hname, htag, -, -⟩ := hnode
    rw [pieces]
    show b.update ((if tag.name = parentName then _ else _) :: ·) = _
    rw [if_neg hname, ← htag.attributes_eq]
  | parent tag, b, hnode, _ => by
    rw [IsPrintable] at hnode
    obtain ⟨hname, htag, -, -⟩ := hnode
    rw [pieces]
    show b.update ((if tag.name = parentName then _ else _) :: ·) = _
    rw [if_pos hname, ← htag.attributes_eq]

theorem foldl_step_piecesList : ∀ (nodes : List Node) (b : TreeBuilder), AllPrintable nodes →
    (∀ first ∈ nodes.head?, first.isText = true → ∀ last ∈ b.current.head?, last.isText = false) →
    ((piecesList nodes).map Piece.token).foldl TreeBuilder.step b =
      b.update (nodes.reverse ++ ·)
  | [], b, _, _ => TreeBuilder.update_id.symm
  | node :: others, b, hnodes, hlast => by
    rw [AllPrintable] at hnodes
    obtain ⟨hnode, happart, hothers⟩ := hnodes
    have hfirst := foldl_step_pieces node b hnode (hlast node rfl)
    have hrest := foldl_step_piecesList others (b.update (node :: ·)) hothers
      fun next hnext htext last hlast => by
        rw [TreeBuilder.current_update] at hlast
        cases hlast
        exact Bool.eq_false_of_not_eq_true fun hboth => happart next hnext ⟨hboth, htext⟩
    rw [piecesList, List.map_append, List.foldl_append, hfirst, hrest, TreeBuilder.update_update]
    simp only [List.reverse_cons, List.append_assoc, List.cons_append, List.nil_append]

end

end Node

/-- **Parsing undoes printing.** The text of a printable tree is read as that tree, without a
mistake. -/
theorem parse_print (children : List Node) (h : Node.AllPrintable children) :
    parse (Node.print (.root children)) = ⟨.root children, []⟩ := by
  have hsplit := Node.isSplit_piecesList children h IsSplit.nil fun _ _ _ _ hq => nomatch hq
  rw [List.append_nil, List.append_nil] at hsplit
  have hread : TreeBuilder.read ((Node.piecesList children).map Piece.token) =
      TreeBuilder.empty.update (children.reverse ++ ·) :=
    Node.foldl_step_piecesList children .empty h fun _ _ _ _ hlast => nomatch hlast
  rw [Node.print, parse, hsplit.tokenize_eq, ParseOutcome.ofTokens]
  show (TreeBuilder.read _).finish = _
  rw [hread, TreeBuilder.finish_of_names_eq_nil (TreeBuilder.names_update _)]
  show ParseOutcome.mk (.root (children.reverse ++ []).reverse) [] = _
  rw [List.append_nil, List.reverse_reverse]

/-- Closers between quotes, lone braces and a lone angle bracket, in texts and in a block. -/
def listingNodes : List Node :=
  [.text "a<\x7b", .block ⟨"Each", .read "var=\"p>q\"", "var=\"p>q\""⟩ true
    [.value ⟨"Var", .read "name=\"\x7d\x7d\" \x7d x", "name=\"\x7d\x7d\" \x7d x"⟩, .text "\x7d",
      .parent ⟨"Parent", .read "", ""⟩]]

theorem parse_print_listing :
    Node.AllPrintable listingNodes ∧
      parse (Node.print (.root listingNodes)) = ⟨.root listingNodes, []⟩ := by
  have h : Node.AllPrintable listingNodes := by
    simp only [listingNodes, Node.AllPrintable, Node.IsPrintable]
    refine ⟨⟨by decide, by decide⟩, by decide, ⟨trivial, by decide, by decide, by decide, ?_⟩,
      by decide, trivial⟩
    exact ⟨⟨by decide, by decide, by decide, by decide⟩, by decide, ⟨by decide, by decide⟩,
      by decide, ⟨rfl, by decide, by decide, by decide⟩, by decide, trivial⟩
  exact ⟨h, parse_print listingNodes h⟩

end LayeredTags
