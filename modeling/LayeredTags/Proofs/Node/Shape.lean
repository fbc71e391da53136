import LayeredTags.Proofs.Node.Bracketing
import LayeredTags.Proofs.Token.Split

/-!
# Where unclosed blocks stand

A block stays unclosed only if it is open at the end of the source, and then so is every block
around it. So the unclosed blocks of a tree are a single chain along its right edge. The nodes under
construction are always complete; the end of the source hangs the open blocks below each other,
each behind the complete children of the next outer one.

* `Node.WellShaped`: the shape of a tree, said of its nodes and their children.
* `Node.AllComplete`: siblings that are finished, with all that stands below them.
* `TreeBuilder.Complete`: the invariant that reading keeps.
* `Node.OpenRight`: complete siblings with one unclosed block behind them, and so on below it.
* `wellShaped_parse`: every tree that is read is well shaped.
-/

namespace LayeredTags

namespace Node

def isRoot : Node → Bool
  | root _ => true
  | text _ | block _ _ _ | value _ | parent _ => false

/-- No text stands next to a text. -/
def SiblingsApart (nodes : List Node) : Prop :=
  nodes.IsChain fun a b => ¬ (a.isText = true ∧ b.isText = true)

/-- The shape of a tree that is read from a source. -/
structure WellShaped (tree : Node) : Prop where
  /-- nothing below a closed block is unclosed -/
  closed : ∀ tag children, .block tag true children ∈ tree.subtrees →
    ∀ node ∈ subtreesList children, node.isUnclosed = false
  /-- an unclosed block is the last child of a root or of an unclosed block -/
  last : ∀ above ∈ tree.subtrees, ∀ front node back, above.children = front ++ node :: back →
    node.isUnclosed = true → back = [] ∧ (above.isRoot = true ∨ above.isUnclosed = true)
  /-- in pre-order every unclosed block is the last child of the one before, and the first one is
  the last child of the tree -/
  chain : (tree :: tree.subtrees.filter isUnclosed).IsChain fun above below =>
    above.children.getLast? = some below
  /-- the tree is a root, and no other node is one -/
  top : tree.isRoot = true ∧ ∀ node ∈ subtreesList tree.children, node.isRoot = false
  texts : ∀ content, .text content ∈ tree.subtrees → content ≠ ""
  apart : ∀ above ∈ tree.subtrees, SiblingsApart above.children

/-! ## Nodes below nodes -/

theorem mem_subtrees_self (node : Node) : node ∈ node.subtrees := by
  cases node <;> exact List.mem_cons_self

theorem subtrees_eq_cons (node : Node) : node.subtrees = node :: subtreesList node.children := by
  cases node <;> rfl

theorem subtreesList_append (nodes others : List Node) :
    subtreesList (nodes ++ others) = subtreesList nodes ++ subtreesList others := by
  induction nodes with
  | nil => rfl
  | cons node rest ih => rw [List.cons_append, subtreesList, subtreesList, ih, List.append_assoc]

theorem subtreesList_singleton (node : Node) : subtreesList [node] = node.subtrees := by
  rw [subtreesList, subtreesList, List.append_nil]

mutual

theorem subtrees_subset {below node : Node} : ∀ above : Node, node ∈ above.subtrees →
    below ∈ node.subtrees → below ∈ above.subtrees
  | root children, hnode, hbelow | block _ _ children, hnode, hbelow => by
    rw [subtrees] at hnode
    rcases List.mem_cons.mp hnode with rfl | hnode
    · exact hbelow
    · rw [subtrees]
      exact .tail _ (subtreesList_subset children hnode hbelow)
  | text _, hnode, hbelow | value _, hnode, hbelow | parent _, hnode, hbelow => by
    rw [subtrees] at hnode
    exact List.mem_singleton.mp hnode ▸ hbelow

theorem subtreesList_subset {below node : Node} : ∀ nodes : List Node, node ∈ subtreesList nodes →
    below ∈ node.subtrees → below ∈ subtreesList nodes
  | [], hnode, _ => by cases hnode
  | first :: rest, hnode, hbelow => by
    rw [subtreesList, List.mem_append] at hnode ⊢
    exact hnode.imp (subtrees_subset first · hbelow) (subtreesList_subset rest · hbelow)

end

theorem mem_subtrees_of_mem_children {node child : Node} (h : child ∈ node.children) :
    child ∈ node.subtrees := by
  rw [subtrees_eq_cons]
  exact .tail _ (mem_subtreesList.mpr ⟨child, h, mem_subtrees_self child⟩)

/-! ## Complete nodes -/

/-- A node that is no root, no unclosed block and no empty text, and whose children hold no adjacent
texts. -/
structure Complete (node : Node) : Prop where
  notRoot : node.isRoot = false
  notUnclosed : node.isUnclosed = false
  notEmpty : node ≠ .text ""
  apart : SiblingsApart node.children

/-- Siblings without adjacent texts that are complete, with all nodes below them. -/
structure AllComplete (nodes : List Node) : Prop where
  complete : ∀ node ∈ subtreesList nodes, node.Complete
  apart : SiblingsApart nodes

theorem SiblingsApart.reverse {nodes : List Node} (h : SiblingsApart nodes) :
    SiblingsApart nodes.reverse :=
  List.isChain_reverse.mpr (h.imp fun _ _ hnot hboth => hnot hboth.symm)

theorem SiblingsApart.concat {nodes : List Node} {node : Node} (h : SiblingsApart nodes)
    (htext : node.isText = false) : SiblingsApart (nodes ++ [node]) := by
  refine List.isChain_append.mpr ⟨h, .singleton node, ?_⟩
  rintro before - _ ⟨⟩ ⟨-, hboth⟩
  rw [htext] at hboth
  cases hboth

namespace AllComplete

variable {nodes : List Node} {node : Node} {content : String}

theorem nil : AllComplete [] := ⟨nofun, .nil⟩

theorem reverse (h : AllComplete nodes) : AllComplete nodes.reverse where
  complete := by simpa only [mem_subtreesList, List.mem_reverse] using h.complete
  apart := h.apart.reverse

theorem of_mem (h : AllComplete nodes) (hnode : node ∈ nodes) : node.Complete :=
  h.complete node (mem_subtreesList.mpr ⟨node, hnode, mem_subtrees_self node⟩)

theorem notMem_of_isUnclosed (h : AllComplete nodes) (hnode : node.isUnclosed = true) :
    node ∉ nodes := by
  intro hmem
  rw [(h.of_mem hmem).notUnclosed] at hnode
  cases hnode

theorem filter_isUnclosed (h : AllComplete nodes) :
    (subtreesList nodes).filter isUnclosed = [] :=
  List.filter_eq_nil_iff.mpr fun node hnode =>
    Bool.eq_false_iff.mp (h.complete node hnode).notUnclosed

theorem complete_below (h : AllComplete nodes) (hnode : node ∈ subtreesList nodes) :
    ∀ below ∈ node.subtrees, below.Complete :=
  fun below hbelow => h.complete below (subtreesList_subset nodes hnode hbelow)

theorem cons (h : AllComplete nodes) (hnode : ∀ n ∈ node.subtrees, n.Complete)
    (hnext : ∀ next ∈ nodes.head?, ¬ (node.isText = true ∧ next.isText = true)) :
    AllComplete (node :: nodes) where
  complete := by
    rw [subtreesList]
    exact List.forall_mem_append.mpr ⟨hnode, h.complete⟩
  apart := List.isChain_cons.mpr ⟨hnext, h.apart⟩

theorem tail (h : AllComplete (node :: nodes)) : AllComplete nodes where
  complete n hn := h.complete n (by
    rw [subtreesList]
    exact List.mem_append_right _ hn)
  apart := h.apart.tail

theorem complete_text (hcontent : content ≠ "") : ∀ n ∈ (text content).subtrees, n.Complete := by
  intro n hn
  rw [subtrees] at hn
  obtain rfl := List.mem_singleton.mp hn
  exact ⟨rfl, rfl, fun h => hcontent (text.inj h), .nil⟩

theorem appendText (h : AllComplete nodes) (hcontent : content ≠ "") :
    AllComplete (appendText content nodes) := by
  by_cases hhead : ∀ node ∈ nodes.head?, node.isText = false
  · rw [appendText_of_head? hhead]
    refine h.cons (complete_text hcontent) ?_
    rintro next hnext ⟨-, htext⟩
    rw [hhead next hnext] at htext
    cases htext
  · cases nodes with
    | nil => exact absurd (by simp) hhead
    | cons node rest =>
      cases node with
      | root | block | value | parent => exact absurd (by simp [isText]) hhead
      | text before =>
        have hjoined : before ++ content ≠ "" := fun hnil =>
          hcontent (String.append_eq_empty_iff.mp hnil).2
        exact h.tail.cons (complete_text hjoined) (List.isChain_cons.mp h.apart).1

theorem complete_block (h : AllComplete nodes) (tag : Tag) :
    ∀ n ∈ (block tag true nodes).subtrees, n.Complete := by
  rw [subtrees]
  exact List.forall_mem_cons.mpr ⟨⟨rfl, rfl, nofun, h.apart⟩, h.complete⟩

end AllComplete

end Node

/-! ## Reading -/

/-- The text that a token may become in the tree is not empty. -/
def Token.Substantial : Token → Prop
  | .text content => content ≠ ""
  | .closing _ source => source ≠ ""
  | .opening _ _ | .value _ _ => True

theorem Spells.substantial {token : Token} {span : List Char} (h : Spells token span) :
    token.Substantial := by
  have hne : span ≠ [] := by
    obtain ⟨start, hstart, hprefix⟩ := h.exists_start
    rintro rfl
    obtain rfl := List.prefix_nil.mp hprefix
    exact absurd hstart (by decide)
  cases h with
  | closing => exact mt String.ofList_eq_empty_iff.mp hne
  | opening | value => trivial

theorem substantial_of_mem_tokenize {source : String} {t : Token} (h : t ∈ tokenize source) :
    t.Substantial := by
  rw [← map_token_pieces] at h
  obtain ⟨p, hp, rfl⟩ := List.mem_map.mp h
  rcases (isSplit_pieces source.toList).spelled p hp with htext | hmarker
  · rw [htext.token_eq]
    exact mt String.ofList_eq_empty_iff.mp htext.nonempty
  · exact hmarker.spells.substantial

namespace TreeBuilder

open Node (AllComplete)

variable {b : TreeBuilder} {t : Token}

/-- All nodes under construction are complete, below the root and in every open block. -/
structure Complete (b : TreeBuilder) : Prop where
  finished : AllComplete b.reversed
  opened : ∀ block ∈ b.opened, AllComplete block.reversed

namespace Complete

theorem empty : TreeBuilder.empty.Complete := ⟨.nil, nofun⟩

theorem update {change : List Node → List Node} (hb : b.Complete)
    (h : ∀ nodes, AllComplete nodes → AllComplete (change nodes)) : (b.update change).Complete := by
  obtain ⟨hfinished, hopened⟩ := update_keeps hb.finished hb.opened h fun _ hblock => h _ hblock
  exact ⟨hfinished, hopened⟩

theorem step (hb : b.Complete) (ht : t.Substantial) : (b.step t).Complete := by
  cases t with
  | text content => exact hb.update fun _ h => h.appendText ht
  | opening name raw => exact ⟨hb.finished, List.forall_mem_cons.mpr ⟨.nil, hb.opened⟩⟩
  | value name raw =>
    refine hb.update fun nodes h => h.cons ?_ ?_
    · split <;>
      · rw [Node.subtrees]
        exact List.forall_mem_singleton.mpr ⟨rfl, rfl, nofun, .nil⟩
    · split <;> exact fun _ _ hboth => nomatch hboth.1
  | closing name source =>
    by_cases hhead : b.names.head? = some name
    · obtain ⟨block, rest, hopened, hname, hblock, hrest⟩ :=
        exists_opened_of_forall hb.opened hhead
      have houter : ({ b with opened := rest } : TreeBuilder).Complete := ⟨hb.finished, hrest⟩
      rw [step_closing_of_opened hopened hname]
      exact houter.update fun nodes h =>
        h.cons (hblock.reverse.complete_block block.tag) fun _ _ hboth => nomatch hboth.1
    · have hnoted : ({ b with mistakes := ⟨.mismatchedCloseTag, name⟩ :: b.mistakes } :
          TreeBuilder).Complete := ⟨hb.finished, hb.opened⟩
      rw [step_closing_of_ne hhead]
      exact hnoted.update fun _ h => h.appendText ht

theorem foldl_step {tokens : List Token} (hb : b.Complete) (h : ∀ t ∈ tokens, t.Substantial) :
    (tokens.foldl TreeBuilder.step b).Complete := by
  induction tokens generalizing b with
  | nil => exact hb
  | cons t rest ih =>
    obtain ⟨ht, hrest⟩ := List.forall_mem_cons.mp h
    exact ih (hb.step ht) hrest

end Complete

end TreeBuilder

/-! ## The end of the source -/

namespace Node

/-- Complete siblings, or complete siblings with an unclosed block behind them whose children are
such siblings again. -/
inductive OpenRight : List Node → Prop where
  | complete {nodes : List Node} (hnodes : AllComplete nodes) : OpenRight nodes
  | unclosed {front children : List Node} {tag : Tag} (hfront : AllComplete front)
      (hchildren : OpenRight children) : OpenRight (front ++ [.block tag false children])

namespace OpenRight

variable {nodes : List Node} {node : Node}

theorem apart (h : OpenRight nodes) : SiblingsApart nodes := by
  cases h with
  | complete hnodes => exact hnodes.apart
  | unclosed hfront _ => exact hfront.apart.concat rfl

theorem of_mem_subtreesList (h : OpenRight nodes) : ∀ node ∈ subtreesList nodes,
    (∀ below ∈ node.subtrees, below.Complete) ∨
      ∃ tag children, node = .block tag false children ∧ OpenRight children := by
  induction h with
  | complete hnodes => exact fun node hnode => .inl (hnodes.complete_below hnode)
  | @unclosed front children tag hfront hchildren ih =>
    intro node hnode
    rw [subtreesList_append, subtreesList_singleton, subtrees, List.mem_append,
      List.mem_cons] at hnode
    rcases hnode with hnode | rfl | hnode
    · exact .inl (hfront.complete_below hnode)
    · exact .inr ⟨tag, children, rfl, hchildren⟩
    · exact ih node hnode

theorem eq_nil_of_isUnclosed {front back : List Node} (h : OpenRight nodes)
    (hnodes : nodes = front ++ node :: back) (hnode : node.isUnclosed = true) : back = [] := by
  cases h with
  | complete hcomplete =>
    refine absurd ?_ (hcomplete.notMem_of_isUnclosed hnode)
    rw [hnodes]
    exact List.mem_append_right _ List.mem_cons_self
  | @unclosed others children tag hothers _ =>
    -- with a node behind it the unclosed one would be among the complete siblings
    cases back using List.reverseRecOn with
    | nil => rfl
    | append_singleton back final =>
      rw [← List.cons_append, ← List.append_assoc] at hnodes
      obtain ⟨rfl, -⟩ := List.append_inj' hnodes rfl
      exact absurd (List.mem_append_right _ List.mem_cons_self)
        (hothers.notMem_of_isUnclosed hnode)

theorem isChain (h : OpenRight nodes) {above : Node} (habove : above.children = nodes) :
    (above :: (subtreesList nodes).filter isUnclosed).IsChain fun above below =>
      above.children.getLast? = some below := by
  induction h generalizing above with
  | complete hnodes =>
    rw [hnodes.filter_isUnclosed]
    exact .singleton above
  | @unclosed front children tag hfront _ ih =>
    rw [subtreesList_append, subtreesList_singleton, subtrees, List.filter_append,
      hfront.filter_isUnclosed, List.nil_append, List.filter_cons_of_pos (by rfl)]
    refine List.isChain_cons_cons.mpr ⟨?_, ih rfl⟩
    rw [habove, List.getLast?_concat]

theorem wellShaped_root (h : OpenRight nodes) : (root nodes).WellShaped := by
  have hbelow := h.of_mem_subtreesList
  have htree : (root nodes).subtrees = root nodes :: subtreesList nodes := subtrees_eq_cons _
  have hmem : ∀ {node}, node ∈ (root nodes).subtrees → node.isRoot = false →
      node ∈ subtreesList nodes := by
    intro node hnode hroot
    rw [htree] at hnode
    rcases List.mem_cons.mp hnode with rfl | hnode
    · cases hroot
    · exact hnode
  constructor
  case closed =>
    intro tag children hblock node hnode
    rcases hbelow _ (hmem hblock rfl) with hcomplete | ⟨_, _, heq, -⟩
    · exact (hcomplete node (by rw [subtrees]; exact .tail _ hnode)).notUnclosed
    · cases heq
  case last =>
    intro above habove front node back hchildren hunclosed
    rw [htree] at habove
    rcases List.mem_cons.mp habove with rfl | habove
    · exact ⟨h.eq_nil_of_isUnclosed hchildren hunclosed, .inl rfl⟩
    · rcases hbelow above habove with hcomplete | ⟨tag, children, rfl, hopen⟩
      · have hchild : node ∈ above.children :=
          hchildren ▸ List.mem_append_right _ List.mem_cons_self
        rw [(hcomplete node (mem_subtrees_of_mem_children hchild)).notUnclosed] at hunclosed
        cases hunclosed
      · exact ⟨hopen.eq_nil_of_isUnclosed hchildren hunclosed, .inr rfl⟩
  case chain =>
    rw [htree, List.filter_cons_of_neg (by exact Bool.false_ne_true)]
    exact h.isChain rfl
  case top =>
    refine ⟨rfl, fun node hnode => ?_⟩
    rcases hbelow node hnode with hcomplete | ⟨_, _, rfl, -⟩
    · exact (hcomplete node (mem_subtrees_self node)).notRoot
    · rfl
  case texts =>
    intro content htext
    rcases hbelow _ (hmem htext rfl) with hcomplete | ⟨_, _, heq, -⟩
    · rintro rfl
      exact (hcomplete _ (mem_subtrees_self _)).notEmpty rfl
    · cases heq
  case apart =>
    intro above habove
    rw [htree] at habove
    rcases List.mem_cons.mp habove with rfl | habove
    · exact h.apart
    · rcases hbelow above habove with hcomplete | ⟨tag, children, rfl, hopen⟩
      · exact (hcomplete above (mem_subtrees_self above)).apart
      · exact hopen.apart

end OpenRight

end Node

namespace TreeBuilder

open Node (AllComplete OpenRight)

/-- The blocks that are still open hang below each other, the innermost at the bottom. -/
theorem openRight_closeUnfinished {root last : List Node} {opened : List OpenBlock}
    (hroot : AllComplete root) (hopened : ∀ block ∈ opened, AllComplete block.reversed)
    (hlast : ∀ nodes, AllComplete nodes → OpenRight (nodes.reverse ++ last)) :
    OpenRight (closeUnfinished root opened last) := by
  induction opened generalizing last with
  | nil => exact hlast root hroot
  | cons block rest ih =>
    obtain ⟨hblock, hrest⟩ := List.forall_mem_cons.mp hopened
    rw [closeUnfinished]
    exact ih hrest fun nodes hnodes => .unclosed hnodes.reverse (hlast block.reversed hblock)

theorem Complete.wellShaped_finish {b : TreeBuilder} (hb : b.Complete) :
    b.finish.root.WellShaped := by
  refine (openRight_closeUnfinished hb.finished hb.opened fun nodes hnodes => ?_).wellShaped_root
  rw [List.append_nil]
  exact .complete hnodes.reverse

end TreeBuilder

/-- **The shape of a tree.** In the tree of a source nothing below a closed block is unclosed, and
every unclosed block is the last child of the root or of another unclosed block, so that the
unclosed blocks are one chain along the right edge. The only root is at the top, no text is empty,
and no two texts are adjacent siblings. -/
theorem wellShaped_parse (source : String) : (parse source).root.WellShaped :=
  (TreeBuilder.Complete.empty.foldl_step fun _ => substantial_of_mem_tokenize).wellShaped_finish

end LayeredTags
