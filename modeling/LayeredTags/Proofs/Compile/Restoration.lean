import LayeredTags.Proofs.Compile.Machine

/-!
# A pass gives the context back

While a pass is under way its context differs from the one that it started with: blocks have been
entered, and calls of the parent have moved cursors and the current layer. Every call that has begun
gives back what it found, in whatever order blocks and calls of the parent lie inside each other.

* `Sound`: what holds of the context at every moment.
* `Smaller`: the order in which calls of the compilation become smaller.
* `Resumes`: every call under way will give back a sound context, and is smaller than the ones that
  it was made from.
* `resumable_step`, `resumable_of_steps`: what one step keeps, and so every number of steps.
* `compile_restores`: from every state that can be reached, compiling a node changes the recorded
  mistakes only.
-/

namespace LayeredTags

/-- Calls of the parent have an owner or none, and the current layer is the one that the innermost
layered block has reached. -/
structure Sound (chain : OverrideChain) (layer : Nat) (stack : OverrideStack Body) : Prop where
  owned : ∃ owner, Owned chain layer stack owner
  atLayer : stack.AtLayer layer

namespace Sound

variable {chain : OverrideChain} {layer : Nat} {stack : OverrideStack Body}

theorem empty : Sound chain layer .empty :=
  ⟨⟨none, Owned.empty⟩, OverrideStack.atLayer_empty layer⟩

theorem layeredBodies {place : Option Nat} {name : String} {bodies : List (Nat × Body)}
    (h : Sound chain layer stack)
    (hbodies : chain.layeredBodies? layer place name stack = some bodies) :
    Sound chain layer (stack.push name bodies) ∧ (stack.push name bodies).pop name = stack := by
  obtain ⟨owner, howned⟩ := h.owned
  obtain ⟨hinside, hpop⟩ := howned.of_layeredBodies? hbodies
  obtain ⟨hactive, own, -, -, rfl⟩ := OverrideChain.layeredBodies?_eq_some_iff.mp hbodies
  have hname := OverrideStack.isActive_eq_false_iff.mp hactive
  exact ⟨⟨⟨_, hinside⟩, h.atLayer.push hname own _⟩, hpop⟩

theorem advance {next : Advance Body} (h : Sound chain layer stack)
    (hadvance : stack.advance = some next) :
    Sound chain next.layer next.stack ∧ next.stack.retreat next.name = stack ∧
      layer < next.layer ∧ next.layer < chain.depth := by
  obtain ⟨owner, howned⟩ := h.owned
  obtain ⟨-, -, hinside⟩ := howned.of_advance hadvance
  obtain ⟨hlayer, hdepth, -⟩ := howned.definition?_of_advance hadvance
  exact ⟨⟨⟨owner, hinside⟩, OverrideStack.atLayer_of_advance hadvance⟩,
    OverrideStack.retreat_advance howned.distinct hadvance, hlayer, hdepth⟩

end Sound

/-! ## Calls under way -/

/-- A call of the compilation is smaller than another one if it is made in a less specific layer, or
in the same layer for a smaller node. -/
def Smaller (chain : OverrideChain) (inner outer : Nat × Node) : Prop :=
  Prod.Lex (· < ·) (· < ·) (chain.depth - inner.1, sizeOf inner.2)
    (chain.depth - outer.1, sizeOf outer.2)

theorem Smaller.trans {chain : OverrideChain} {first second third : Nat × Node}
    (h : Smaller chain first second) (h' : Smaller chain second third) :
    Smaller chain first third :=
  Prod.Lex.trans h h'

/-- The calls whose end is still to come, the innermost first, with their layers. -/
def callers (tasks : List Task) : List (Nat × Node) :=
  tasks.filterMap fun
    | .finish caller layer _ => some (layer, caller)
    | .node _ _ | .siblings _ _ => none

@[simp] theorem callers_nil : callers [] = [] := rfl

@[simp] theorem callers_node (place : Option Nat) (node : Node) (rest : List Task) :
    callers (.node place node :: rest) = callers rest := rfl

@[simp] theorem callers_siblings (place : Option Nat) (nodes : List Node) (rest : List Task) :
    callers (.siblings place nodes :: rest) = callers rest := rfl

@[simp] theorem callers_finish (caller : Node) (layer : Nat) (undo : Undo) (rest : List Task) :
    callers (.finish caller layer undo :: rest) = (layer, caller) :: callers rest := rfl

/-- What is left to do can be done from a context with this layer and this stack: the context is
sound, every call under way will give back one that is sound, and the calls get smaller. -/
inductive Resumes (chain : OverrideChain) : Nat → OverrideStack Body → List Task → Prop
  | done {layer : Nat} {stack : OverrideStack Body} (sound : Sound chain layer stack) :
      Resumes chain layer stack []
  | node {layer : Nat} {stack : OverrideStack Body} {place : Option Nat} {node : Node}
      {rest : List Task} (smaller : ∀ outer ∈ callers rest, Smaller chain (layer, node) outer)
      (behind : Resumes chain layer stack rest) :
      Resumes chain layer stack (.node place node :: rest)
  | siblings {layer : Nat} {stack : OverrideStack Body} {place : Option Nat} {nodes : List Node}
      {rest : List Task}
      (smaller : ∀ node ∈ nodes, ∀ outer ∈ callers rest, Smaller chain (layer, node) outer)
      (behind : Resumes chain layer stack rest) :
      Resumes chain layer stack (.siblings place nodes :: rest)
  | finish {layer : Nat} {stack : OverrideStack Body} {caller : Node} {rest : List Task}
      (smaller : ∀ outer ∈ callers rest, Smaller chain (layer, caller) outer)
      (behind : Resumes chain layer stack rest) :
      Resumes chain layer stack (.finish caller layer .nothing :: rest)
  | leave {layer : Nat} {stack inside : OverrideStack Body} {caller : Node} {name : String}
      {rest : List Task} (sound : Sound chain layer inside) (undone : inside.pop name = stack)
      (smaller : ∀ outer ∈ callers rest, Smaller chain (layer, caller) outer)
      (behind : Resumes chain layer stack rest) :
      Resumes chain layer inside (.finish caller layer (.leave name) :: rest)
  | goBack {layer inner : Nat} {stack inside : OverrideStack Body} {caller : Node} {name : String}
      {rest : List Task} (sound : Sound chain inner inside) (undone : inside.retreat name = stack)
      (less : layer < inner ∧ inner < chain.depth)
      (smaller : ∀ outer ∈ callers rest, Smaller chain (layer, caller) outer)
      (behind : Resumes chain layer stack rest) :
      Resumes chain inner inside (.finish caller layer (.goBack name) :: rest)

namespace Resumes

variable {chain : OverrideChain} {layer : Nat} {stack : OverrideStack Body} {tasks : List Task}

theorem sound (h : Resumes chain layer stack tasks) : Sound chain layer stack := by
  induction h with
  | done sound => exact sound
  | node _ _ ih | siblings _ _ ih | finish _ _ ih => exact ih
  | leave sound _ _ _ _ => exact sound
  | goBack sound _ _ _ _ _ => exact sound

theorem smaller_finish {caller : Node} {called : Nat × Node} (undo : Undo)
    (hcalled : Smaller chain called (layer, caller))
    (h : ∀ outer ∈ callers tasks, Smaller chain (layer, caller) outer) :
    ∀ outer ∈ callers (.finish caller layer undo :: tasks), Smaller chain called outer := by
  intro outer houter
  rw [callers_finish] at houter
  rcases List.mem_cons.mp houter with rfl | houter
  · exact hcalled
  · exact hcalled.trans (h outer houter)

theorem smaller_child {caller child : Node} (undo : Undo) (hsize : sizeOf child < sizeOf caller)
    (h : ∀ outer ∈ callers tasks, Smaller chain (layer, caller) outer) :
    ∀ outer ∈ callers (.finish caller layer undo :: tasks), Smaller chain (layer, child) outer :=
  smaller_finish undo (Prod.Lex.right _ hsize) h

theorem smaller_inner {inner : Nat} {caller child : Node} (undo : Undo)
    (hless : layer < inner ∧ inner < chain.depth)
    (h : ∀ outer ∈ callers tasks, Smaller chain (layer, caller) outer) :
    ∀ outer ∈ callers (.finish caller layer undo :: tasks), Smaller chain (inner, child) outer :=
  smaller_finish undo (Prod.Lex.left _ _ (by omega)) h

end Resumes

namespace PassState

/-- What is left to do can be done from the context. -/
def Resumable (s : PassState) : Prop :=
  Resumes s.ctx.chain s.ctx.currentLayer s.ctx.stack s.tasks

variable {s t : PassState}

theorem resumable_call {place : Option Nat} {node : Node} (h : s.Resumable)
    (hsmaller : ∀ outer ∈ callers s.tasks,
      Smaller s.ctx.chain (s.ctx.currentLayer, node) outer) :
    (s.call place node).Resumable := by
  cases node with
  | text content => exact h
  | value tag => exact h
  | root children =>
    refine .siblings (fun child hchild => ?_) (.finish hsmaller h)
    have hsize := List.sizeOf_lt_of_mem hchild
    exact Resumes.smaller_child _ (by simp +arith; omega) hsmaller
  | block tag closed children =>
    cases closed with
    | false => exact h
    | true =>
      have hchildren : ∀ undo, ∀ child ∈ children,
          ∀ outer ∈ callers (.finish (.block tag true children) s.ctx.currentLayer undo :: s.tasks),
            Smaller s.ctx.chain (s.ctx.currentLayer, child) outer := by
        intro undo child hchild
        have hsize := List.sizeOf_lt_of_mem hchild
        exact Resumes.smaller_child _ (by simp +arith; omega) hsmaller
      cases hbodies : s.ctx.chain.layeredBodies? s.ctx.currentLayer place tag.name s.ctx.stack with
      | none =>
        rw [call_block_of_none hbodies]
        exact .siblings (hchildren _) (.finish hsmaller h)
      | some bodies =>
        obtain ⟨hsound, hundone⟩ := h.sound.layeredBodies hbodies
        rw [call_block_of_some hbodies]
        exact .siblings (hchildren _) (.leave hsound hundone hsmaller h)
  | parent tag =>
    cases hadvance : s.ctx.stack.advance with
    | none =>
      rw [call_parent_of_none hadvance]
      exact h
    | some next =>
      obtain ⟨hsound, hundone, hless⟩ := h.sound.advance hadvance
      rw [call_parent_of_some hadvance]
      exact .siblings (fun child _ => Resumes.smaller_inner _ hless hsmaller)
        (.goBack hsound hundone hless hsmaller h)

theorem resumable_step (h : s.Resumable) (hstep : s.step = some t) : t.Resumable := by
  obtain ⟨ctx, tasks, codes⟩ := s
  unfold Resumable at h
  simp only at h
  cases h with
  | done => cases hstep
  | node smaller behind =>
    obtain rfl := Option.some.inj hstep
    exact resumable_call behind smaller
  | @siblings _ _ _ nodes _ smaller behind =>
    cases nodes with
    | nil =>
      obtain rfl := Option.some.inj hstep
      exact behind
    | cons node nodes =>
      obtain rfl := Option.some.inj hstep
      exact .node (smaller node List.mem_cons_self)
        (.siblings (fun other hother => smaller other (List.mem_cons_of_mem _ hother)) behind)
  | finish smaller behind =>
    obtain rfl := Option.some.inj hstep
    exact behind
  | leave _ undone _ behind =>
    obtain rfl := Option.some.inj hstep
    subst undone
    exact behind
  | goBack _ undone _ _ behind =>
    obtain rfl := Option.some.inj hstep
    subst undone
    exact behind

theorem resumable_of_steps (h : s.Resumable) (hsteps : Steps s t) : t.Resumable := by
  induction hsteps with
  | refl => exact h
  | tail _ hstep ih => exact resumable_step ih hstep

theorem resumable_begin (registry : Registry) (roots : List Node)
    (nodes : List (Option Nat × Node)) :
    ((CompileContext.ofRoots registry roots).begin nodes).Resumable := by
  have hcallers : ∀ nodes : List (Option Nat × Node),
      callers (nodes.map fun n => .node n.1 n.2) = [] := by
    intro nodes
    induction nodes with
    | nil => rfl
    | cons n rest ih => exact ih
  show Resumes (.ofRoots roots) 0 .empty _
  induction nodes with
  | nil => exact .done Sound.empty
  | cons n rest ih => exact .node (by simp [hcallers]) ih

theorem compile_of_sound (ctx : CompileContext) (place : Option Nat) (node : Node)
    (h : Sound ctx.chain ctx.currentLayer ctx.stack) :
    ctx.compile place node = ((ctx.compile place node).1,
        ctx.record (ctx.compile place node).1.diagnostics) ∧
      Steps (ctx.begin [(place, node)])
        ((ctx.record (ctx.compile place node).1.diagnostics).finished
          (ctx.compile place node).1.code) := by
  obtain ⟨owner, howned⟩ := h.owned
  refine ⟨?_, steps_node ctx owner howned place node [] "" []⟩
  simp only [CompileContext.compile, CompileContext.record]
  rw [howned.compileNode_stack]

end PassState

open PassState in
/-- **A pass gives the context back.** Nodes are compiled one after the other in a fresh context,
and that is interrupted anywhere. Compiling any node from there leaves the context as it was but for
the mistakes, which are recorded behind the ones before, and so does the machine, which puts the
stack and the current layer back one by one. Compiling the node again yields the same. -/
theorem compile_restores (registry : Registry) (roots : List Node)
    (nodes : List (Option Nat × Node)) {s : PassState}
    (hs : Steps ((CompileContext.ofRoots registry roots).begin nodes) s) (place : Option Nat)
    (node : Node) :
    ∃ emission : Emission,
      s.ctx.compile place node = (emission, s.ctx.record emission.diagnostics) ∧
      Steps (s.ctx.begin [(place, node)])
        ((s.ctx.record emission.diagnostics).finished emission.code) ∧
      (s.ctx.record emission.diagnostics).compile place node =
        (emission, (s.ctx.record emission.diagnostics).record emission.diagnostics) := by
  have hsound := (resumable_of_steps (resumable_begin registry roots nodes) hs).sound
  obtain ⟨hcompile, hsteps⟩ := compile_of_sound s.ctx place node hsound
  refine ⟨_, hcompile, hsteps, ?_⟩
  -- the recorded mistakes have no part in what a pass yields
  exact (compile_of_sound (s.ctx.record _) place node hsound).1

/-- A chain of two layers in which the first one calls for the body of the second one. -/
def callingChain : List Node :=
  [.root [.block ⟨"Content", .empty, ""⟩ true
      [.text "<", .parent ⟨parentName, .empty, ""⟩, .text ">"]],
    .root [.block ⟨"Content", .empty, ""⟩ true [.text "base"]]]

open PassState in
/-- Inside the body of the second layer the block is active and its cursor has moved. -/
theorem compile_restores_insideBody :
    ∃ s, Steps ((CompileContext.ofRoots .empty callingChain).begin
        [(some 0, callingChain.headD (.text ""))]) s ∧
      s.ctx.currentLayer = 1 ∧ s.ctx.stack.names = ["Content"] ∧
      ∃ emission, s.ctx.compile none (.parent ⟨parentName, .empty, ""⟩) =
        (emission, s.ctx.record emission.diagnostics) := by
  have hs : Steps ((CompileContext.ofRoots .empty callingChain).begin
      [(some 0, callingChain.headD (.text ""))]) _ :=
    .head rfl (.head rfl (.head rfl (.head rfl (.head rfl (.head rfl (.head rfl .refl))))))
  obtain ⟨emission, hcompile, -⟩ := compile_restores .empty callingChain _ hs none
    (.parent ⟨parentName, .empty, ""⟩)
  exact ⟨_, hs, rfl, rfl, emission, hcompile⟩

end LayeredTags
