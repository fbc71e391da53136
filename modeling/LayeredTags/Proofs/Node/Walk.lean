import LayeredTags.Proofs.Node.Builder
import Mathlib.Data.List.Chain

/-!
# Walking a tree

A walk over the tree of a source meets what the tokens of the source say: nothing is lost, nothing
stands twice, and nothing changes its place. Only close markers that name no innermost open block
have become texts, and adjacent texts have become one.

* `Node.walk`: what a walk over a tree meets.
* `Token.event`, `eventsOf`: what tokens say, read with a stack of the names of open blocks.
* `mergeTexts`: adjacent texts put together.
* `TreeBuilder.Settled`: the invariant that reading keeps.
* `TreeBuilder.Everywhere`: a property of all nodes, which reading keeps if tokens grant it.
* `walk_parse`: the walk over a tree against the tokens of its source.
-/

namespace LayeredTags

/-- What a walk over a tree meets. -/
inductive TreeEvent where
  | text (content : String)
  /-- the start of a block -/
  | enter (name raw : String)
  /-- the end of a closed block -/
  | leave (name : String)
  | value (name raw : String)
  deriving DecidableEq, Repr

def TreeEvent.isText : TreeEvent → Bool
  | text _ => true
  | enter _ _ | leave _ | value _ _ => false

/-! ## What tokens say -/

/-- What a token says behind open blocks of the given names, the innermost first. A close marker
that does not name the innermost one is a text. -/
def Token.event (names : List String) : Token → TreeEvent
  | .text content => .text content
  | .opening name raw => .enter name raw
  | .closing name source => if names.head? = some name then .leave name else .text source
  | .value name raw => .value name raw

/-- What tokens say behind open blocks of the given names. -/
def eventsOf (names : List String) : List Token → List TreeEvent
  | [] => []
  | t :: rest => t.event names :: eventsOf (t.openNames names) rest

/-- The mistakes of tokens behind open blocks of the given names: the close markers that are texts,
in order. -/
def mistakesOf (names : List String) : List Token → List Diagnostic
  | [] => []
  | t :: rest => t.mistakes names ++ mistakesOf (t.openNames names) rest

/-- The names of the open blocks behind tokens, the innermost first. -/
def namesBehind (names : List String) : List Token → List String
  | [] => names
  | t :: rest => namesBehind (t.openNames names) rest

def mergeTexts : List TreeEvent → List TreeEvent
  | [] => []
  | .text content :: rest =>
    match mergeTexts rest with
    | .text next :: others => .text (content ++ next) :: others
    | others => .text content :: others
  | event :: rest => event :: mergeTexts rest

theorem mergeTexts_text_text (front : List TreeEvent) (a b : String) (rest : List TreeEvent) :
    mergeTexts (front ++ .text a :: .text b :: rest) =
      mergeTexts (front ++ .text (a ++ b) :: rest) := by
  induction front with
  | nil =>
    rw [List.nil_append, List.nil_append, mergeTexts, mergeTexts, mergeTexts]
    cases mergeTexts rest with
    | nil => rfl
    | cons event others =>
      cases event with
      | text next => exact congrArg (fun s => TreeEvent.text s :: others) (String.append_assoc).symm
      | enter | leave | value => rfl
  | cons event front ih =>
    rw [List.cons_append, List.cons_append]
    cases event with
    | text content => rw [mergeTexts, mergeTexts, ih]
    | enter | leave | value => rw [mergeTexts, mergeTexts, ih] <;> exact nofun

/-- No text stands behind a text. -/
def TextsApart (events : List TreeEvent) : Prop :=
  events.IsChain fun a b => a.isText = true → b.isText = false

theorem mergeTexts_of_textsApart {events : List TreeEvent} (h : TextsApart events) :
    mergeTexts events = events := by
  induction events with
  | nil => rfl
  | cons event rest ih =>
    have hrest : mergeTexts rest = rest := ih h.tail
    cases event with
    | text content =>
      rw [mergeTexts, hrest]
      cases rest with
      | nil => rfl
      | cons next others =>
        cases next with
        | text => exact absurd ((List.isChain_cons_cons.mp h).1 rfl) Bool.true_eq_false.mp
        | enter | leave | value => rfl
    | enter | leave | value =>
      rw [mergeTexts, hrest]
      exact nofun

/-! ## What a tree says -/

namespace Node

mutual

/-- What a walk over a node meets: the start of a block, its children, and its end if the block is
closed. -/
def walk : Node → List TreeEvent
  | root children => walkList children
  | text content => [.text content]
  | block tag closed children =>
    .enter tag.name tag.raw ::
      (walkList children ++ if closed then [.leave tag.name] else [])
  | value tag | parent tag => [.value tag.name tag.raw]

def walkList : List Node → List TreeEvent
  | [] => []
  | node :: rest => walk node ++ walkList rest

end

mutual

def subtrees : Node → List Node
  | root children => root children :: subtreesList children
  | text content => [text content]
  | block tag closed children => block tag closed children :: subtreesList children
  | value tag => [value tag]
  | parent tag => [parent tag]

def subtreesList : List Node → List Node
  | [] => []
  | node :: rest => subtrees node ++ subtreesList rest

end

/-- The attributes of a node are those of its raw text, and it is a call of the parent if and only
if it is a value of that name. -/
def TagRead : Node → Prop
  | root _ | text _ => True
  | block tag _ _ => tag.attributes = .read tag.raw
  | value tag => tag.attributes = .read tag.raw ∧ tag.name ≠ parentName
  | parent tag => tag.attributes = .read tag.raw ∧ tag.name = parentName

theorem walkList_append (nodes others : List Node) :
    walkList (nodes ++ others) = walkList nodes ++ walkList others := by
  induction nodes with
  | nil => rfl
  | cons node rest ih => rw [List.cons_append, walkList, walkList, ih, List.append_assoc]

theorem walkList_singleton (node : Node) : walkList [node] = node.walk := by
  rw [walkList, walkList, List.append_nil]

theorem mem_subtreesList {node : Node} {nodes : List Node} :
    node ∈ subtreesList nodes ↔ ∃ n ∈ nodes, node ∈ n.subtrees := by
  induction nodes with
  | nil => simp [subtreesList]
  | cons n rest ih => simp [subtreesList, ih]

theorem mem_subtreesList_reverse_append {node : Node} {reversed last : List Node} :
    node ∈ subtreesList (reversed.reverse ++ last) ↔
      node ∈ subtreesList reversed ∨ node ∈ subtreesList last := by
  simp only [mem_subtreesList, List.mem_append, List.mem_reverse, or_and_right, exists_or]

end Node

/-! ## The tree under construction -/

namespace TreeBuilder

variable {b : TreeBuilder} {t : Token} {content : String} {node : Node}

def walkOpen (root : List Node) : List OpenBlock → List TreeEvent
  | [] => Node.walkList root.reverse
  | block :: rest =>
    walkOpen root rest ++
      .enter block.tag.name block.tag.raw :: Node.walkList block.reversed.reverse

/-- What a walk over the tree under construction meets. -/
def walk (b : TreeBuilder) : List TreeEvent :=
  walkOpen b.reversed b.opened

theorem walk_update_cons : (b.update (node :: ·)).walk = b.walk ++ node.walk := by
  have hlist : ∀ nodes : List Node,
      Node.walkList (node :: nodes).reverse = Node.walkList nodes.reverse ++ node.walk := by
    intro nodes
    rw [List.reverse_cons, Node.walkList_append, Node.walkList_singleton]
  obtain ⟨reversed, opened, mistakes⟩ := b
  cases opened with
  | nil => exact hlist reversed
  | cons block rest =>
    show walkOpen reversed rest ++ .enter _ _ :: Node.walkList (node :: block.reversed).reverse = _
    rw [hlist, ← List.cons_append, ← List.append_assoc]
    rfl

theorem walk_update_text (content : String) {before : String} {rest : List Node}
    (h : b.current = .text before :: rest) :
    ∃ front, b.walk = front ++ [.text before] ∧
      (b.update (appendText content)).walk = front ++ [.text (before ++ content)] := by
  have hlist : ∀ s : String, Node.walkList (.text s :: rest).reverse =
      Node.walkList rest.reverse ++ [.text s] := by
    intro s
    rw [List.reverse_cons, Node.walkList_append, Node.walkList_singleton, Node.walk]
  obtain ⟨reversed, opened, mistakes⟩ := b
  cases opened with
  | nil =>
    obtain rfl : reversed = _ := h
    exact ⟨_, hlist before, hlist (before ++ content)⟩
  | cons block others =>
    obtain ⟨tag, children⟩ := block
    obtain rfl : children = _ := h
    refine ⟨walkOpen reversed others ++ .enter tag.name tag.raw :: Node.walkList rest.reverse,
      ?_, ?_⟩
    · show walkOpen reversed others ++
        .enter _ _ :: Node.walkList (.text before :: rest).reverse = _
      rw [hlist, ← List.cons_append, ← List.append_assoc]
    · show walkOpen reversed others ++
        .enter _ _ :: Node.walkList (.text (before ++ content) :: rest).reverse = _
      rw [hlist, ← List.cons_append, ← List.append_assoc]

/-- An event has been added to a walk: behind it, or to its last event if both are texts. After a
text the last child is that text. -/
def Adds (b changed : TreeBuilder) (event : TreeEvent) : Prop :=
  (changed.walk = b.walk ++ [event] ∧
    ∀ content, event = .text content →
      (∀ node ∈ b.current.head?, node.isText = false) ∧
        changed.current.head? = some (.text content)) ∨
  ∃ front before content, event = .text content ∧ b.walk = front ++ [.text before] ∧
    changed.walk = front ++ [.text (before ++ content)] ∧
      changed.current.head? = some (.text (before ++ content))

theorem adds_text (b : TreeBuilder) (content : String) :
    b.Adds (b.update (appendText content)) (.text content) := by
  by_cases hhead : ∀ node ∈ b.current.head?, node.isText = false
  · left
    have hcurrent : appendText content b.current = .text content :: b.current :=
      appendText_of_head? hhead
    rw [update_congr hcurrent, walk_update_cons, Node.walk, current_update]
    refine ⟨rfl, fun _ heq => ⟨hhead, ?_⟩⟩
    rw [TreeEvent.text.inj heq, List.head?_cons]
  · right
    cases hnodes : b.current with
    | nil => exact absurd (by simp [hnodes]) hhead
    | cons node rest =>
      cases node with
      | root | block | value | parent => exact absurd (by simp [hnodes, Node.isText]) hhead
      | text before =>
        obtain ⟨front, hwalk, hchanged⟩ := walk_update_text content hnodes
        refine ⟨front, before, content, rfl, hwalk, hchanged, ?_⟩
        rw [current_update, hnodes, appendText, List.head?_cons]

theorem adds_step (b : TreeBuilder) (t : Token) : b.Adds (b.step t) (t.event b.names) := by
  cases t with
  | text content => exact adds_text b content
  | opening name raw => exact .inl ⟨rfl, nofun⟩
  | value name raw =>
    refine .inl ⟨?_, nofun⟩
    rw [step, walk_update_cons]
    split <;> rw [Node.walk] <;> rfl
  | closing name source =>
    rw [Token.event]
    split
    · rename_i hhead
      obtain ⟨block, rest, hopened, hname⟩ := exists_opened_of_head? hhead
      refine .inl ⟨?_, by rintro _ ⟨⟩⟩
      rw [step_closing_of_opened hopened hname, walk_update_cons, Node.walk, if_pos rfl, hname,
        walk, walk, hopened, walkOpen, List.append_assoc, List.cons_append, hname]
    · rename_i hhead
      rw [step_closing_of_ne hhead]
      exact adds_text { b with mistakes := ⟨.mismatchedCloseTag, name⟩ :: b.mistakes } source

/-- No text stands behind a text, and where a walk ends in a text the last child is a text. -/
structure Settled (b : TreeBuilder) : Prop where
  apart : TextsApart b.walk
  text_of_walk : ∀ event ∈ b.walk.getLast?, event.isText = true →
    ∃ node ∈ b.current.head?, node.isText = true

theorem settled_empty : empty.Settled :=
  ⟨List.isChain_nil, nofun⟩

theorem Adds.settled {changed : TreeBuilder} {event : TreeEvent} (h : b.Adds changed event)
    (hb : b.Settled) : changed.Settled := by
  rcases h with ⟨hwalk, htext⟩ | ⟨front, before, content, rfl, hwalk, hchanged, hhead⟩
  · refine ⟨?_, ?_⟩
    · rw [TextsApart, hwalk, List.isChain_append]
      refine ⟨hb.apart, List.isChain_singleton _, ?_⟩
      rintro last hlast _ ⟨⟩ hlastText
      cases event with
      | enter | leave | value => rfl
      | text content =>
        obtain ⟨node, hnode, hnodeText⟩ := hb.text_of_walk last hlast hlastText
        exact absurd hnodeText (by simp [(htext content rfl).1 node hnode])
    · rw [hwalk, List.getLast?_concat]
      rintro _ ⟨⟩ hisText
      cases event with
      | enter | leave | value => cases hisText
      | text content => exact ⟨_, (htext content rfl).2, rfl⟩
  · refine ⟨?_, fun _ _ _ => ⟨_, hhead, rfl⟩⟩
    have hapart := hb.apart
    rw [TextsApart, hwalk, List.isChain_append] at hapart
    rw [TextsApart, hchanged, List.isChain_append]
    refine ⟨hapart.1, List.isChain_singleton _, ?_⟩
    rintro last hlast _ ⟨⟩
    exact hapart.2.2 last hlast (.text before) rfl

theorem Adds.mergeTexts_walk {changed : TreeBuilder} {event : TreeEvent}
    (h : b.Adds changed event) (rest : List TreeEvent) :
    mergeTexts (b.walk ++ event :: rest) = mergeTexts (changed.walk ++ rest) := by
  rcases h with ⟨hwalk, -⟩ | ⟨front, before, content, rfl, hwalk, hchanged, -⟩
  · rw [hwalk, List.append_assoc, List.singleton_append]
  · rw [hwalk, hchanged, List.append_assoc, List.append_assoc]
    exact mergeTexts_text_text front before content rest

/-- Reading tokens adds what they say to the walk, with adjacent texts merged. -/
theorem walk_foldl_step (tokens : List Token) (hb : b.Settled) :
    (tokens.foldl step b).walk = mergeTexts (b.walk ++ eventsOf b.names tokens) := by
  induction tokens generalizing b with
  | nil => rw [eventsOf, List.append_nil, mergeTexts_of_textsApart hb.apart, List.foldl_nil]
  | cons t rest ih =>
    have hadds := adds_step b t
    rw [List.foldl_cons, ih (hadds.settled hb), names_step, eventsOf, hadds.mergeTexts_walk]

theorem names_foldl_step (tokens : List Token) :
    (tokens.foldl step b).names = namesBehind b.names tokens := by
  induction tokens generalizing b with
  | nil => rfl
  | cons t rest ih => rw [List.foldl_cons, ih, names_step, namesBehind]

theorem mistakes_foldl_step (tokens : List Token) :
    (tokens.foldl step b).mistakes.reverse = b.mistakes.reverse ++ mistakesOf b.names tokens := by
  induction tokens generalizing b with
  | nil => rw [mistakesOf, List.append_nil, List.foldl_nil]
  | cons t rest ih =>
    have hone : (t.mistakes b.names).reverse = t.mistakes b.names := by
      cases t with
      | text | opening | value => rfl
      | closing name source =>
        rw [Token.mistakes]
        split <;> rfl
    rw [List.foldl_cons, ih, names_step, mistakes_step, List.reverse_append, hone, mistakesOf,
      List.append_assoc]

theorem walkList_closeUnfinished (root : List Node) (opened : List OpenBlock) (last : List Node) :
    Node.walkList (closeUnfinished root opened last) =
      walkOpen root opened ++ Node.walkList last := by
  induction opened generalizing last with
  | nil => rw [closeUnfinished, Node.walkList_append, walkOpen]
  | cons block rest ih =>
    rw [closeUnfinished, ih, Node.walkList_singleton, Node.walk, Node.walkList_append, walkOpen]
    simp

theorem walk_finish : b.finish.root.walk = b.walk := by
  rw [finish, Node.walk, walkList_closeUnfinished, Node.walkList, List.append_nil, walk]

theorem diagnostics_finish : b.finish.diagnostics =
    b.mistakes.reverse ++ b.names.map (⟨.unclosedBlock, ·⟩) := by
  rw [names, List.map_map]
  rfl

/-! ## Properties of all nodes -/

/-- A property that every node has that a token adds to a tree. -/
structure Granted (P : Node → Prop) : Prop where
  text : ∀ content, P (.text content)
  block : ∀ name raw children, P (.block ⟨name, .read raw, raw⟩ true children)
  value : ∀ name raw, P (if name = parentName then .parent ⟨name, .read raw, raw⟩
    else .value ⟨name, .read raw, raw⟩)

/-- All nodes under construction have a property, and an open block has it once it is closed. -/
structure Everywhere (P : Node → Prop) (b : TreeBuilder) : Prop where
  finished : ∀ node ∈ Node.subtreesList b.reversed, P node
  opened : ∀ block ∈ b.opened, (∀ children, P (.block block.tag true children)) ∧
    ∀ node ∈ Node.subtreesList block.reversed, P node

theorem everywhere_empty {P : Node → Prop} : empty.Everywhere P :=
  ⟨by simp [empty, Node.subtreesList], nofun⟩

namespace Everywhere

variable {P : Node → Prop}

theorem update {change : List Node → List Node} (hb : b.Everywhere P)
    (h : ∀ nodes, (∀ node ∈ Node.subtreesList nodes, P node) →
      ∀ node ∈ Node.subtreesList (change nodes), P node) : (b.update change).Everywhere P := by
  obtain ⟨hfinished, hopened⟩ :=
    update_keeps hb.finished hb.opened h fun _ hblock => ⟨hblock.1, h _ hblock.2⟩
  exact ⟨hfinished, hopened⟩

theorem update_cons (hb : b.Everywhere P) (h : ∀ n ∈ node.subtrees, P n) :
    (b.update (node :: ·)).Everywhere P := by
  refine hb.update fun nodes hnodes => ?_
  rw [Node.subtreesList]
  exact List.forall_mem_append.mpr ⟨h, hnodes⟩

theorem update_text (hP : Granted P) (hb : b.Everywhere P) :
    (b.update (appendText content)).Everywhere P := by
  have htext : ∀ s : String, ∀ n ∈ (Node.text s).subtrees, P n := by
    intro s n hn
    rw [Node.subtrees] at hn
    obtain rfl := List.mem_singleton.mp hn
    exact hP.text s
  refine hb.update fun nodes hnodes => ?_
  rw [appendText.eq_def]
  split
  · rw [Node.subtreesList] at hnodes ⊢
    exact List.forall_mem_append.mpr ⟨htext _, (List.forall_mem_append.mp hnodes).2⟩
  · rw [Node.subtreesList]
    exact List.forall_mem_append.mpr ⟨htext _, hnodes⟩

theorem step (hP : Granted P) (hb : b.Everywhere P) : (b.step t).Everywhere P := by
  cases t with
  | text content => exact hb.update_text hP
  | opening name raw =>
    refine ⟨hb.finished, List.forall_mem_cons.mpr ⟨⟨hP.block name raw, ?_⟩, hb.opened⟩⟩
    rw [Node.subtreesList]
    exact nofun
  | value name raw =>
    refine hb.update_cons fun n hn => ?_
    have hvalue := hP.value name raw
    split_ifs at hn hvalue
    all_goals
      rw [Node.subtrees] at hn
      exact List.mem_singleton.mp hn ▸ hvalue
  | closing name source =>
    by_cases hhead : b.names.head? = some name
    · obtain ⟨block, rest, hopened, hname, ⟨hblock, hchildren⟩, hrest⟩ :=
        exists_opened_of_forall hb.opened hhead
      have hb' : ({ b with opened := rest } : TreeBuilder).Everywhere P := ⟨hb.finished, hrest⟩
      rw [step_closing_of_opened hopened hname]
      refine hb'.update_cons ?_
      rw [Node.subtrees]
      refine List.forall_mem_cons.mpr ⟨hblock _, ?_⟩
      simpa only [Node.mem_subtreesList, List.mem_reverse] using hchildren
    · rw [step_closing_of_ne hhead]
      exact update_text hP ⟨hb.finished, hb.opened⟩

theorem foldl_step (hP : Granted P) (tokens : List Token) (hb : b.Everywhere P) :
    (tokens.foldl TreeBuilder.step b).Everywhere P := by
  induction tokens generalizing b with
  | nil => exact hb
  | cons t rest ih => exact ih (hb.step hP)

theorem finish (hb : b.Everywhere P) (hroot : ∀ children, P (.root children))
    (hopen : ∀ block ∈ b.opened, ∀ children, P (.block block.tag false children)) :
    ∀ node ∈ b.finish.root.subtrees, P node := by
  have hclose : ∀ (opened : List OpenBlock) (last : List Node),
      (∀ block ∈ opened, (∀ children, P (.block block.tag false children)) ∧
        ∀ node ∈ Node.subtreesList block.reversed, P node) →
      (∀ node ∈ Node.subtreesList last, P node) →
      ∀ node ∈ Node.subtreesList (closeUnfinished b.reversed opened last), P node := by
    intro opened
    induction opened with
    | nil =>
      intro last _ hlast node hnode
      rw [closeUnfinished, Node.mem_subtreesList_reverse_append] at hnode
      exact hnode.elim (hb.finished node) (hlast node)
    | cons block rest ih =>
      intro last hopened hlast
      obtain ⟨⟨hblock, hchildren⟩, hrest⟩ := List.forall_mem_cons.mp hopened
      rw [closeUnfinished]
      refine ih _ hrest ?_
      rw [Node.subtreesList, Node.subtreesList, List.append_nil, Node.subtrees]
      refine List.forall_mem_cons.mpr ⟨hblock _, fun node hnode => ?_⟩
      exact (Node.mem_subtreesList_reverse_append.mp hnode).elim (hchildren node) (hlast node)
  rw [TreeBuilder.finish, Node.subtrees]
  refine List.forall_mem_cons.mpr ⟨hroot _, hclose b.opened [] (fun block hblock =>
    ⟨hopen block hblock, (hb.opened block hblock).2⟩) ?_⟩
  rw [Node.subtreesList]
  exact List.forall_mem_nil _

end Everywhere

/-! ## Tags -/

/-- The tags of all nodes under construction have been read from their markers. -/
def TagsRead (b : TreeBuilder) : Prop :=
  b.Everywhere Node.TagRead

theorem granted_tagRead : Granted Node.TagRead where
  text _ := trivial
  block _ _ _ := rfl
  value name raw := by
    split
    · exact ⟨rfl, ‹_›⟩
    · exact ⟨rfl, ‹_›⟩

theorem tagsRead_empty : empty.TagsRead :=
  everywhere_empty

theorem TagsRead.foldl_step (tokens : List Token) (hb : b.TagsRead) :
    (tokens.foldl TreeBuilder.step b).TagsRead :=
  Everywhere.foldl_step granted_tagRead tokens hb

theorem TagsRead.finish (hb : b.TagsRead) : ∀ node ∈ b.finish.root.subtrees, node.TagRead :=
  Everywhere.finish hb (fun _ => trivial) fun block hblock => (hb.opened block hblock).1

end TreeBuilder

theorem tagRead_of_mem_subtrees {source : String} {node : Node}
    (h : node ∈ (parse source).root.subtrees) : node.TagRead :=
  (TreeBuilder.tagsRead_empty.foldl_step (tokenize source)).finish node h

/-- **A walk over the tree of a source.** It meets what the tokens of the source say, in their
order, with every close marker that names no innermost open block read as a text and adjacent texts
put together. The mistakes are these close markers, in order, and behind them the blocks that are
still open, the innermost first. All attributes are those of the raw text, and exactly the values of
the parent's name are calls of the parent. -/
theorem walk_parse (source : String) :
    (parse source).root.walk = mergeTexts (eventsOf [] (tokenize source)) ∧
      (parse source).diagnostics = mistakesOf [] (tokenize source) ++
        (namesBehind [] (tokenize source)).map (⟨.unclosedBlock, ·⟩) ∧
      ∀ node ∈ (parse source).root.subtrees, node.TagRead := by
  rw [parse, ParseOutcome.ofTokens]
  refine ⟨?_, ?_, (TreeBuilder.tagsRead_empty.foldl_step _).finish⟩
  · rw [TreeBuilder.walk_finish, TreeBuilder.walk_foldl_step _ TreeBuilder.settled_empty]
    rfl
  · rw [TreeBuilder.diagnostics_finish, TreeBuilder.mistakes_foldl_step,
      TreeBuilder.names_foldl_step]
    rfl

end LayeredTags
