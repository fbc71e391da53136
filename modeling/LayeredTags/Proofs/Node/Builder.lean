import LayeredTags.Node.Builder
import Mathlib.Data.List.Induction

/-!
# Reading tokens into a tree

What one token does to the tree under construction, seen through three observations: the children
of the innermost open block, the names of the open blocks, and the finished nodes below the root.

* `TreeBuilder.current`, `TreeBuilder.names`: the first two observations.
* `TreeBuilder.names_step`: open and close markers work on a stack of names.
* `TreeBuilder.mistakes_step`: the mistakes are the close markers that name another block.
* `TreeBuilder.reversed_step`: while a block is open nothing is added below the root.
* `TreeBuilder.finish_of_names_eq_nil`, `TreeBuilder.exists_finish_root`: the tree in the end.
-/

namespace LayeredTags

def Node.isText : Node → Bool
  | text _ => true
  | root _ | block _ _ _ | value _ | parent _ => false

/-- The names of the open blocks behind a token, the innermost first. -/
def Token.openNames (names : List String) : Token → List String
  | .opening name _ => name :: names
  | .closing name _ => if names.head? = some name then names.tail else names
  | .text _ | .value _ _ => names

/-- The mistake that a token is behind open blocks of the given names. -/
def Token.mistakes (names : List String) : Token → List Diagnostic
  | .closing name _ => if names.head? = some name then [] else [⟨.mismatchedCloseTag, name⟩]
  | .opening _ _ | .text _ | .value _ _ => []

theorem appendText_of_head? {content : String} {nodes : List Node}
    (h : ∀ node ∈ nodes.head?, node.isText = false) :
    appendText content nodes = .text content :: nodes := by
  cases nodes with
  | nil => rfl
  | cons node rest =>
    have hnode := h node rfl
    cases node with
    | text => cases hnode
    | root | block | value | parent => rfl

namespace TreeBuilder

variable {b : TreeBuilder} {t : Token}

def current (b : TreeBuilder) : List Node :=
  match b.opened with
  | [] => b.reversed
  | block :: _ => block.reversed

def names (b : TreeBuilder) : List String :=
  b.opened.map (·.tag.name)

/-- The tree under construction behind a list of tokens. -/
def read (tokens : List Token) : TreeBuilder :=
  tokens.foldl step empty

theorem names_eq_nil_iff : b.names = [] ↔ b.opened = [] := List.map_eq_nil_iff

theorem exists_opened_of_head? {name : String} (h : b.names.head? = some name) :
    ∃ block rest, b.opened = block :: rest ∧ block.tag.name = name := by
  rw [names] at h
  cases hopened : b.opened with
  | nil =>
    rw [hopened] at h
    cases h
  | cons block rest =>
    rw [hopened] at h
    exact ⟨block, rest, rfl, Option.some.inj h⟩

theorem exists_opened_of_forall {P : OpenBlock → Prop} {name : String}
    (h : ∀ block ∈ b.opened, P block) (hhead : b.names.head? = some name) :
    ∃ block rest, b.opened = block :: rest ∧ block.tag.name = name ∧ P block ∧
      ∀ outer ∈ rest, P outer := by
  obtain ⟨block, rest, hopened, hname⟩ := exists_opened_of_head? hhead
  rw [hopened] at h
  exact ⟨block, rest, hopened, hname, List.forall_mem_cons.mp h⟩

/-! ## Changing the innermost children -/

@[simp] theorem current_update (change : List Node → List Node) :
    (b.update change).current = change b.current := by
  obtain ⟨reversed, opened, mistakes⟩ := b
  cases opened with
  | nil => rfl
  | cons block rest => rfl

@[simp] theorem names_update (change : List Node → List Node) :
    (b.update change).names = b.names := by
  obtain ⟨reversed, opened, mistakes⟩ := b
  cases opened with
  | nil => rfl
  | cons block rest => rfl

@[simp] theorem mistakes_update (change : List Node → List Node) :
    (b.update change).mistakes = b.mistakes := by
  obtain ⟨reversed, opened, mistakes⟩ := b
  cases opened with
  | nil => rfl
  | cons block rest => rfl

theorem update_update (first second : List Node → List Node) :
    (b.update first).update second = b.update fun nodes => second (first nodes) := by
  obtain ⟨reversed, opened, mistakes⟩ := b
  cases opened with
  | nil => rfl
  | cons block rest => rfl

theorem update_congr {first second : List Node → List Node}
    (h : first b.current = second b.current) : b.update first = b.update second := by
  obtain ⟨reversed, opened, mistakes⟩ := b
  cases opened with
  | nil => exact congrArg (fun nodes => (⟨nodes, [], mistakes⟩ : TreeBuilder)) h
  | cons block rest =>
    exact congrArg (fun nodes => (⟨reversed, ⟨block.tag, nodes⟩ :: rest, mistakes⟩ : TreeBuilder)) h

theorem update_id : b.update (fun nodes => nodes) = b := by
  obtain ⟨reversed, opened, mistakes⟩ := b
  cases opened with
  | nil => rfl
  | cons block rest => rfl

theorem reversed_update (hopen : b.opened ≠ []) (change : List Node → List Node) :
    (b.update change).reversed = b.reversed := by
  obtain ⟨reversed, opened, mistakes⟩ := b
  cases opened with
  | nil => exact absurd rfl hopen
  | cons block rest => rfl

/-- What holds of the children of the root and of every open block still holds when the innermost
children change in a way that keeps it. -/
theorem update_keeps {P : List Node → Prop} {Q : OpenBlock → Prop} {change : List Node → List Node}
    (hroot : P b.reversed) (hopened : ∀ block ∈ b.opened, Q block)
    (hP : ∀ nodes, P nodes → P (change nodes))
    (hQ : ∀ block : OpenBlock, Q block → Q ⟨block.tag, change block.reversed⟩) :
    P (b.update change).reversed ∧ ∀ block ∈ (b.update change).opened, Q block := by
  obtain ⟨reversed, opened, mistakes⟩ := b
  cases opened with
  | nil => exact ⟨hP _ hroot, nofun⟩
  | cons block rest =>
    obtain ⟨hblock, hrest⟩ := List.forall_mem_cons.mp hopened
    exact ⟨hroot, List.forall_mem_cons.mpr ⟨hQ _ hblock, hrest⟩⟩

/-! ## One token -/

theorem step_closing_of_opened {name source : String} {block : OpenBlock} {rest : List OpenBlock}
    (hopened : b.opened = block :: rest) (hname : block.tag.name = name) :
    b.step (.closing name source) =
      ({ b with opened := rest } : TreeBuilder).update
        (.block block.tag true block.reversed.reverse :: ·) := by
  rw [step, hopened]
  exact if_pos hname

theorem step_closing_update (b : TreeBuilder) (tag : Tag) (source : String)
    (change : List Node → List Node) :
    (({ b with opened := ⟨tag, []⟩ :: b.opened } : TreeBuilder).update change).step
        (.closing tag.name source) =
      b.update (.block tag true (change []).reverse :: ·) := by
  have hopened : (({ b with opened := ⟨tag, []⟩ :: b.opened } : TreeBuilder).update change).opened =
      ⟨tag, change []⟩ :: b.opened := rfl
  rw [step_closing_of_opened hopened rfl]
  rfl

theorem step_closing_of_ne {name source : String} (hne : b.names.head? ≠ some name) :
    b.step (.closing name source) =
      ({ b with mistakes := ⟨.mismatchedCloseTag, name⟩ :: b.mistakes } : TreeBuilder).update
        (appendText source) := by
  rw [step]
  cases hopened : b.opened with
  | nil => rfl
  | cons block rest =>
    refine if_neg fun hname => hne ?_
    rw [names, hopened, List.map_cons, List.head?_cons, hname]

theorem names_step : (b.step t).names = t.openNames b.names := by
  cases t with
  | text content => exact names_update _
  | value name raw => exact names_update _
  | opening name raw => rfl
  | closing name source =>
    rw [Token.openNames]
    split
    · rename_i hhead
      obtain ⟨block, rest, hopened, hname⟩ := exists_opened_of_head? hhead
      rw [step_closing_of_opened hopened hname, names_update, names, names, hopened]
      rfl
    · rename_i hne
      rw [step_closing_of_ne hne, names_update]
      rfl

theorem mistakes_step : (b.step t).mistakes = t.mistakes b.names ++ b.mistakes := by
  cases t with
  | text content => exact mistakes_update _
  | value name raw => exact mistakes_update _
  | opening name raw => rfl
  | closing name source =>
    rw [Token.mistakes]
    split
    · rename_i hhead
      obtain ⟨block, rest, hopened, hname⟩ := exists_opened_of_head? hhead
      rw [step_closing_of_opened hopened hname, mistakes_update]
      rfl
    · rename_i hne
      rw [step_closing_of_ne hne, mistakes_update]
      rfl

theorem reversed_step (hopen : (b.step t).names ≠ []) : (b.step t).reversed = b.reversed := by
  have hupdate : ∀ (b' : TreeBuilder) (change : List Node → List Node),
      (b'.update change).names ≠ [] → (b'.update change).reversed = b'.reversed := by
    intro b' change h
    rw [names_update] at h
    exact reversed_update (mt names_eq_nil_iff.mpr h) change
  cases t with
  | text content => exact hupdate b _ hopen
  | value name raw => exact hupdate b _ hopen
  | opening name raw => rfl
  | closing name source =>
    by_cases hhead : b.names.head? = some name
    · obtain ⟨block, rest, hopened, hname⟩ := exists_opened_of_head? hhead
      rw [step_closing_of_opened hopened hname] at hopen ⊢
      exact hupdate _ _ hopen
    · rw [step_closing_of_ne hhead] at hopen ⊢
      exact hupdate _ _ hopen

/-! ## A list of tokens -/

theorem read_concat (tokens : List Token) (t : Token) :
    read (tokens ++ [t]) = (read tokens).step t := by
  rw [read, List.foldl_append]
  rfl

theorem kind_of_mem_mistakes_read {tokens : List Token} {d : Diagnostic}
    (h : d ∈ (read tokens).mistakes) : d.kind = .mismatchedCloseTag := by
  induction tokens using List.reverseRecOn with
  | nil => cases h
  | append_singleton tokens t ih =>
    rw [read_concat, mistakes_step] at h
    rcases List.mem_append.mp h with h | h
    · cases t with
      | text | value | opening => cases h
      | closing name source =>
        rw [Token.mistakes] at h
        split at h
        · cases h
        · rw [List.mem_singleton.mp h]
    · exact ih h

/-! ## The end -/

theorem finish_of_names_eq_nil (h : b.names = []) :
    b.finish = ⟨.root b.reversed.reverse, b.mistakes.reverse⟩ := by
  rw [finish, names_eq_nil_iff.mp h, closeUnfinished, List.map_nil, List.append_nil,
    List.append_nil]

/-- Of the blocks that stay open only the outermost one stands below the root, behind all finished
nodes. -/
theorem exists_finish_root (h : b.names ≠ []) :
    ∃ tag children, b.finish.root = .root (b.reversed.reverse ++ [.block tag false children]) := by
  have hclose : ∀ (opened : List OpenBlock) (last : List Node), opened ≠ [] →
      ∃ tag children, closeUnfinished b.reversed opened last =
        b.reversed.reverse ++ [.block tag false children] := by
    intro opened
    induction opened with
    | nil => exact fun _ hne => absurd rfl hne
    | cons block rest ih =>
      intro last _
      rw [closeUnfinished]
      cases rest with
      | nil => exact ⟨_, _, rfl⟩
      | cons outer rest => exact ih _ (List.cons_ne_nil outer rest)
  obtain ⟨tag, children, heq⟩ := hclose b.opened [] (mt names_eq_nil_iff.mpr h)
  exact ⟨tag, children, congrArg Node.root heq⟩

end TreeBuilder

end LayeredTags
