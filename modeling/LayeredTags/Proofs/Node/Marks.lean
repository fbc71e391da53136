import LayeredTags.Proofs.Node.Walk

/-!
# Nodes and the tokens that they stand for

A token that opens a block or is a value has a mark, and so has the node that it becomes. Recovering
from mistakes loses no mark and makes none up.

* `Node.mark?`, `Token.mark?`: the marks.
* `Node.mem_walk_iff`, `mem_eventsOf_iff`: they are met in a walk and in what tokens say.
* `exists_mark?_iff`: the nodes of a source have the marks of its tokens.
-/

namespace LayeredTags

/-- Whether an event is a mark: the start of a block, or a value. -/
def TreeEvent.isMark : TreeEvent → Bool
  | enter _ _ | value _ _ => true
  | text _ | leave _ => false

theorem TreeEvent.isText_of_isMark {event : TreeEvent} (h : event.isMark = true) :
    event.isText = false := by
  cases event with
  | enter | value => rfl
  | text | leave => cases h

/-! ## Marks of nodes -/

namespace Node

/-- What a walk meets at a node that has a tag. -/
def mark? : Node → Option TreeEvent
  | block tag _ _ => some (.enter tag.name tag.raw)
  | value tag | parent tag => some (.value tag.name tag.raw)
  | root _ | text _ => none

theorem isMark_of_mark? {node : Node} {event : TreeEvent} (h : node.mark? = some event) :
    event.isMark = true := by
  cases node with
  | root | text => cases h
  | block | value | parent =>
    rw [← Option.some.inj h]
    rfl

mutual

theorem mem_walk_iff {event : TreeEvent} (hmark : event.isMark = true) :
    ∀ node : Node, event ∈ node.walk ↔ ∃ n ∈ node.subtrees, n.mark? = some event
  | root children => by
    rw [walk, subtrees, mem_walkList_iff hmark children]
    simp [mark?]
  | text content => by
    have hne : event ≠ .text content := by
      rintro rfl
      cases hmark
    rw [walk, subtrees]
    simp [mark?, hne]
  | block tag closed children => by
    have hne : event ∉ (if closed then [.leave tag.name] else []) := by
      split
      · rw [List.mem_singleton]
        rintro rfl
        cases hmark
      · exact List.not_mem_nil
    rw [walk, subtrees, List.mem_cons, List.mem_append, mem_walkList_iff hmark children]
    simp [mark?, hne, eq_comm]
  | value tag | parent tag => by
    rw [walk, subtrees]
    simp [mark?, eq_comm]

theorem mem_walkList_iff {event : TreeEvent} (hmark : event.isMark = true) :
    ∀ nodes : List Node, event ∈ walkList nodes ↔ ∃ n ∈ subtreesList nodes, n.mark? = some event
  | [] => by simp [walkList, subtreesList]
  | node :: rest => by
    rw [walkList, subtreesList, List.mem_append, mem_walk_iff hmark node,
      mem_walkList_iff hmark rest]
    simp only [List.mem_append, or_and_right, exists_or]

end

end Node

/-! ## Marks of tokens -/

namespace Token

/-- What a token says if it opens a block or is a value. -/
def mark? : Token → Option TreeEvent
  | opening name raw => some (.enter name raw)
  | value name raw => some (.value name raw)
  | text _ | closing _ _ => none

theorem event_eq_iff {t : Token} {names : List String} {event : TreeEvent}
    (hmark : event.isMark = true) : t.event names = event ↔ t.mark? = some event := by
  cases t with
  | opening | value => simp [Token.event, mark?]
  | text content =>
    refine iff_of_false ?_ (Option.some_ne_none event).symm
    rintro rfl
    cases hmark
  | closing name source =>
    refine iff_of_false ?_ (Option.some_ne_none event).symm
    rintro rfl
    rw [Token.event] at hmark
    split at hmark <;> cases hmark

theorem mark?_eq_enter_iff {t : Token} {name raw : String} :
    t.mark? = some (.enter name raw) ↔ t = .opening name raw := by
  cases t <;> simp [mark?]

theorem mark?_eq_value_iff {t : Token} {name raw : String} :
    t.mark? = some (.value name raw) ↔ t = .value name raw := by
  cases t <;> simp [mark?]

end Token

theorem mem_eventsOf_iff {event : TreeEvent} (hmark : event.isMark = true) {names : List String}
    {tokens : List Token} : event ∈ eventsOf names tokens ↔ ∃ t ∈ tokens, t.mark? = some event := by
  induction tokens generalizing names with
  | nil => simp [eventsOf]
  | cons t rest ih =>
    rw [eventsOf, List.mem_cons, ih, eq_comm, Token.event_eq_iff hmark, List.exists_mem_cons_iff]

theorem mem_mergeTexts_iff {event : TreeEvent} (htext : event.isText = false)
    {events : List TreeEvent} : event ∈ mergeTexts events ↔ event ∈ events := by
  induction events with
  | nil => rfl
  | cons first rest ih =>
    cases first with
    | text content =>
      have hne : ∀ s : String, event ≠ .text s := by
        rintro s rfl
        cases htext
      rw [mergeTexts, List.mem_cons, ← ih]
      cases mergeTexts rest with
      | nil => simp [hne]
      | cons next others => cases next <;> simp [hne]
    | enter | leave | value =>
      rw [mergeTexts, List.mem_cons, List.mem_cons, ih]
      simp

/-! ## Marks of a source -/

theorem exists_mark?_iff {source : String} {event : TreeEvent} :
    (∃ node ∈ (parse source).root.subtrees, node.mark? = some event) ↔
      ∃ t ∈ tokenize source, t.mark? = some event := by
  by_cases hmark : event.isMark = true
  · have hwalk : (parse source).root.walk = mergeTexts (eventsOf [] (tokenize source)) := by
      rw [parse, ParseOutcome.ofTokens, TreeBuilder.walk_finish,
        TreeBuilder.walk_foldl_step _ TreeBuilder.settled_empty]
      rfl
    rw [← Node.mem_walk_iff hmark, hwalk, mem_mergeTexts_iff (TreeEvent.isText_of_isMark hmark),
      mem_eventsOf_iff hmark]
  · refine iff_of_false ?_ ?_
    · rintro ⟨node, -, hnode⟩
      exact hmark (Node.isMark_of_mark? hnode)
    · rintro ⟨t, -, ht⟩
      exact hmark (by cases t <;> cases ht <;> rfl)

theorem opening_mem_tokenize_iff {source name raw : String} :
    .opening name raw ∈ tokenize source ↔
      ∃ node ∈ (parse source).root.subtrees, node.mark? = some (.enter name raw) := by
  rw [exists_mark?_iff]
  simp only [Token.mark?_eq_enter_iff, exists_eq_right]

theorem value_mem_tokenize_iff {source name raw : String} :
    .value name raw ∈ tokenize source ↔
      ∃ node ∈ (parse source).root.subtrees, node.mark? = some (.value name raw) := by
  rw [exists_mark?_iff]
  simp only [Token.mark?_eq_value_iff, exists_eq_right]

end LayeredTags
