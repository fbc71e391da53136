import LayeredTags.Proofs.Compile.Environment
import Mathlib.Logic.Relation

/-!
# A pass step by step

A pass as a machine that changes one context in place: it enters and leaves blocks, goes to less
specific bodies and comes back, and records mistakes where they arise. Nothing bounds it; a call of
the parent goes wherever the stack says. `steps_node` shows that the machine ends, and that it ends
with what `compileNode` yields.

* `Task`, `PassState`: what is left to do, and the state of the machine.
* `PassState.step`, `Steps`: one step, and any number of them.
* `steps_node`, `steps_siblings`: from a sound context a node is compiled whatever lies behind it.

The proof follows the recursion of the pass. At a call of the parent the owner of the call makes
sure that the machine goes to a less specific layer.
-/

namespace LayeredTags

/-- What has to be undone at the end of a call: nothing, a block that was entered, or a step to a
less specific body. -/
inductive Undo where
  | nothing
  | leave (name : String)
  | goBack (name : String)
  deriving DecidableEq, Repr

/-- What a pass has left to do. -/
inductive Task where
  /-- compile a node -/
  | node (place : Option Nat) (node : Node)
  /-- compile siblings one after the other -/
  | siblings (place : Option Nat) (nodes : List Node)
  /-- end the call for a node that was made in a layer -/
  | finish (caller : Node) (layer : Nat) (undo : Undo)

def CompileContext.record (ctx : CompileContext) (mistakes : List Diagnostic) : CompileContext :=
  { ctx with diagnostics := ctx.diagnostics ++ mistakes }

def CompileContext.insideBlock (ctx : CompileContext) (name : String)
    (bodies : List (Nat × Body)) : CompileContext :=
  { ctx with stack := ctx.stack.push name bodies }

def CompileContext.insideBody (ctx : CompileContext) (next : Advance Body) : CompileContext :=
  { ctx with stack := next.stack, currentLayer := next.layer }

def Undo.apply (layer : Nat) (ctx : CompileContext) : Undo → CompileContext
  | nothing => ctx
  | leave name => { ctx with stack := ctx.stack.pop name }
  | goBack name => { ctx with stack := ctx.stack.retreat name, currentLayer := layer }

theorem Undo.registry_apply (undo : Undo) (layer : Nat) (ctx : CompileContext) :
    (undo.apply layer ctx).registry = ctx.registry := by
  cases undo <;> rfl

/-- What a node yields, given the code of what it is around. -/
def Node.close (registry : Registry) (inner : String) : Node → Emission
  | .block tag true _ => registry.emitBlock tag (.ofCode inner)
  | _ => .ofCode inner

/-- The context of a pass, what is left to do, the next task first, and the codes that are being
put together, the innermost first. -/
structure PassState where
  ctx : CompileContext
  tasks : List Task
  codes : List String

namespace PassState

/-- Adds code to the innermost one and records mistakes. -/
def emit (s : PassState) (e : Emission) : PassState where
  ctx := s.ctx.record e.diagnostics
  tasks := s.tasks
  codes := s.codes.modifyHead (· ++ e.code)

/-- Begins a code of its own for siblings; the call for the node around them ends behind them. -/
def enter (s : PassState) (ctx : CompileContext) (place : Option Nat) (nodes : List Node)
    (caller : Node) (undo : Undo) : PassState where
  ctx := ctx
  tasks := .siblings place nodes :: .finish caller s.ctx.currentLayer undo :: s.tasks
  codes := "" :: s.codes

/-- Calls the compilation of a node. -/
def call (s : PassState) (place : Option Nat) (node : Node) : PassState :=
  match node with
  | .root children => s.enter s.ctx place children node .nothing
  | .text content => s.emit (.ofCode content)
  | .block _ false _ => s
  | .block tag true children =>
    match s.ctx.chain.layeredBodies? s.ctx.currentLayer place tag.name s.ctx.stack with
    | some bodies =>
      s.enter (s.ctx.insideBlock tag.name bodies) (place.map (· + 1)) children node
        (.leave tag.name)
    | none => s.enter s.ctx (place.map (· + 1)) children node .nothing
  | .value tag => s.emit (s.ctx.registry.emitValue tag)
  | .parent _ =>
    match s.ctx.stack.advance with
    | none => s.emit (.ofMistake .parentWithoutLayer (s.ctx.stack.current?.getD parentName))
    | some next =>
      s.enter (s.ctx.insideBody next) (some (next.body.number + 1)) next.body.children node
        (.goBack next.name)

section call

variable {s : PassState} {place : Option Nat} {tag : Tag} {children : List Node}

theorem call_block_of_some {bodies : List (Nat × Body)}
    (h : s.ctx.chain.layeredBodies? s.ctx.currentLayer place tag.name s.ctx.stack = some bodies) :
    s.call place (.block tag true children) = s.enter (s.ctx.insideBlock tag.name bodies)
      (place.map (· + 1)) children (.block tag true children) (.leave tag.name) := by
  simp only [call, h]

theorem call_block_of_none
    (h : s.ctx.chain.layeredBodies? s.ctx.currentLayer place tag.name s.ctx.stack = none) :
    s.call place (.block tag true children) =
      s.enter s.ctx (place.map (· + 1)) children (.block tag true children) .nothing := by
  simp only [call, h]

theorem call_parent_of_some {next : Advance Body} (h : s.ctx.stack.advance = some next) :
    s.call place (.parent tag) = s.enter (s.ctx.insideBody next) (some (next.body.number + 1))
      next.body.children (.parent tag) (.goBack next.name) := by
  simp only [call, h]

theorem call_parent_of_none (h : s.ctx.stack.advance = none) :
    s.call place (.parent tag) =
      s.emit (.ofMistake .parentWithoutLayer (s.ctx.stack.current?.getD parentName)) := by
  simp only [call, h]

end call

def finish (s : PassState) (caller : Node) (layer : Nat) (undo : Undo) : PassState :=
  emit { s with ctx := undo.apply layer s.ctx, codes := s.codes.tail }
    (caller.close s.ctx.registry (s.codes.headD ""))

/-- One step; there is none when nothing is left to do. -/
def step (s : PassState) : Option PassState :=
  match s.tasks with
  | [] => none
  | .node place node :: rest => some (call { s with tasks := rest } place node)
  | .siblings _ [] :: rest => some { s with tasks := rest }
  | .siblings place (node :: nodes) :: rest =>
    some { s with
      tasks := .node (node.placeIn place) node ::
        .siblings (place.map (· + node.blockCount)) nodes :: rest }
  | .finish caller layer undo :: rest => some (finish { s with tasks := rest } caller layer undo)

/-- The machine comes from one state to another. -/
abbrev Steps : PassState → PassState → Prop :=
  Relation.ReflTransGen fun s t => s.step = some t

end PassState

/-- The machine in front of nodes that are compiled one after the other in the same context. -/
def CompileContext.begin (ctx : CompileContext) (nodes : List (Option Nat × Node)) : PassState :=
  ⟨ctx, nodes.map fun n => .node n.1 n.2, [""]⟩

/-- The machine when a code is complete. -/
def CompileContext.finished (ctx : CompileContext) (code : String) : PassState :=
  ⟨ctx, [], [code]⟩

namespace CompileContext

variable {ctx : CompileContext}

@[simp] theorem record_nil : ctx.record [] = ctx := by
  simp [record]

@[simp] theorem record_append (first second : List Diagnostic) :
    ctx.record (first ++ second) = (ctx.record first).record second := by
  simp [record]

end CompileContext

/-! ## The machine ends with what the pass yields -/

namespace PassState

/-- A call that begins a code of its own, when the siblings in it have been compiled and the call
has been undone. -/
theorem steps_of_enter {ctx inside : CompileContext} {position : Option Nat} {node : Node}
    {nodes : List Node} {undo : Undo} {tasks : List Task} {code : String} {codes : List String}
    (place : Option Nat) (inner : Emission)
    (hcall : call ⟨ctx, tasks, code :: codes⟩ place node =
      enter ⟨ctx, tasks, code :: codes⟩ inside position nodes node undo)
    (hinner : Steps
      ⟨inside, .siblings position nodes :: .finish node ctx.currentLayer undo :: tasks,
        "" :: code :: codes⟩
      ⟨inside.record inner.diagnostics, .finish node ctx.currentLayer undo :: tasks,
        ("" ++ inner.code) :: code :: codes⟩)
    (hundo : undo.apply ctx.currentLayer (inside.record inner.diagnostics) =
      ctx.record inner.diagnostics) :
    Steps ⟨ctx, .node place node :: tasks, code :: codes⟩
      ⟨ctx.record (inner.diagnostics ++ (node.close ctx.registry inner.code).diagnostics), tasks,
        (code ++ (node.close ctx.registry inner.code).code) :: codes⟩ := by
  have hregistry : inside.registry = ctx.registry := by
    have h := congrArg CompileContext.registry hundo
    rwa [Undo.registry_apply] at h
  have hlast : step ⟨inside.record inner.diagnostics, .finish node ctx.currentLayer undo :: tasks,
      ("" ++ inner.code) :: code :: codes⟩ =
      some ⟨ctx.record (inner.diagnostics ++ (node.close ctx.registry inner.code).diagnostics),
        tasks, (code ++ (node.close ctx.registry inner.code).code) :: codes⟩ := by
    rw [CompileContext.record_append, ← hundo, ← hregistry]
    simp only [step, finish, emit, String.empty_append]
    rfl
  refine .head ?_ (hinner.tail hlast)
  show some (call _ place node) = _
  rw [hcall]
  rfl

mutual

/-- A node is compiled in a context in which calls of the parent have an owner or none: the machine
comes to what lies behind the node, with the code and the mistakes of the pass and otherwise with
the same context. -/
theorem steps_node (ctx : CompileContext) (owner : Option String)
    (ho : Owned ctx.chain ctx.currentLayer ctx.stack owner) (place : Option Nat) (node : Node)
    (tasks : List Task) (code : String) (codes : List String) :
    Steps ⟨ctx, .node place node :: tasks, code :: codes⟩
      ⟨ctx.record (compileNode ctx.registry ctx.chain ctx.currentLayer place node
          ctx.stack).1.diagnostics, tasks,
        (code ++ (compileNode ctx.registry ctx.chain ctx.currentLayer place node
          ctx.stack).1.code) :: codes⟩ := by
  match node with
  | .root children =>
    have hinner := steps_siblings ctx owner ho place children
      (.finish (.root children) ctx.currentLayer .nothing :: tasks) "" (code :: codes)
    have hsteps := steps_of_enter place _ rfl hinner rfl
    rw [compileNode]
    simpa only [Node.close, Emission.ofCode, List.append_nil] using hsteps
  | .text content =>
    rw [compileNode]
    exact .single rfl
  | .block tag false children =>
    rw [compileNode]
    simp only [Emission.empty, CompileContext.record_nil, String.append_empty]
    exact .single rfl
  | .value tag =>
    rw [compileNode]
    exact .single rfl
  | .block tag true children =>
    rw [compileNode]
    cases hbodies : ctx.chain.layeredBodies? ctx.currentLayer place tag.name ctx.stack with
    | none =>
      have hinner := steps_siblings ctx owner ho (place.map (· + 1)) children
        (.finish (.block tag true children) ctx.currentLayer .nothing :: tasks) "" (code :: codes)
      have hsteps := steps_of_enter place _ (call_block_of_none hbodies) hinner rfl
      obtain ⟨hcode, hmistakes⟩ := ctx.registry.emitBlock_ofCode tag
        (compileNodes ctx.registry ctx.chain ctx.currentLayer (place.map (· + 1)) children
          ctx.stack).1
      simp only
      rw [hcode, hmistakes]
      exact hsteps
    | some bodies =>
      obtain ⟨hpushed, hpop⟩ := ho.of_layeredBodies? hbodies
      have hinner := steps_siblings (ctx.insideBlock tag.name bodies) _ hpushed
        (place.map (· + 1)) children
        (.finish (.block tag true children) ctx.currentLayer (.leave tag.name) :: tasks) ""
        (code :: codes)
      have hundo : ∀ mistakes, (Undo.leave tag.name).apply ctx.currentLayer
          ((ctx.insideBlock tag.name bodies).record mistakes) = ctx.record mistakes := by
        intro mistakes
        simp only [Undo.apply, CompileContext.record, CompileContext.insideBlock]
        rw [hpop]
      have hsteps := steps_of_enter place _ (call_block_of_some hbodies) hinner (hundo _)
      obtain ⟨hcode, hmistakes⟩ := ctx.registry.emitBlock_ofCode tag
        (compileNodes ctx.registry ctx.chain ctx.currentLayer (place.map (· + 1)) children
          (ctx.stack.push tag.name bodies)).1
      simp only
      rw [hcode, hmistakes]
      exact hsteps
  | .parent tag =>
    rw [compileNode]
    cases hadvance : ctx.stack.advance with
    | none =>
      exact .single (congrArg some (call_parent_of_none hadvance))
    | some next =>
      -- the step goes to a definition of the owner behind the current layer
      obtain ⟨-, -, hinside⟩ := ho.of_advance hadvance
      obtain ⟨hlayer, hdepth, -⟩ := ho.definition?_of_advance hadvance
      have hless : (ctx.insideBody next).chain.depth - (ctx.insideBody next).currentLayer <
          ctx.chain.depth - ctx.currentLayer := by
        show ctx.chain.depth - next.layer < _
        omega
      have hinner := steps_siblings (ctx.insideBody next) owner hinside
        (some (next.body.number + 1)) next.body.children
        (.finish (.parent tag) ctx.currentLayer (.goBack next.name) :: tasks) "" (code :: codes)
      have hundo : ∀ mistakes, (Undo.goBack next.name).apply ctx.currentLayer
          ((ctx.insideBody next).record mistakes) = ctx.record mistakes := by
        intro mistakes
        simp only [Undo.apply, CompileContext.record, CompileContext.insideBody]
        rw [OverrideStack.retreat_advance ho.distinct hadvance]
      have hsteps := steps_of_enter place _ (call_parent_of_some hadvance) hinner (hundo _)
      simp only [Node.close, Emission.ofCode, List.append_nil] at hsteps
      simp only
      rw [if_pos ⟨hlayer, hdepth⟩]
      exact hsteps
termination_by (ctx.chain.depth - ctx.currentLayer, sizeOf node)

theorem steps_siblings (ctx : CompileContext) (owner : Option String)
    (ho : Owned ctx.chain ctx.currentLayer ctx.stack owner) (place : Option Nat)
    (nodes : List Node) (tasks : List Task) (code : String) (codes : List String) :
    Steps ⟨ctx, .siblings place nodes :: tasks, code :: codes⟩
      ⟨ctx.record (compileNodes ctx.registry ctx.chain ctx.currentLayer place nodes
          ctx.stack).1.diagnostics, tasks,
        (code ++ (compileNodes ctx.registry ctx.chain ctx.currentLayer place nodes
          ctx.stack).1.code) :: codes⟩ := by
  match nodes with
  | [] =>
    rw [compileNodes]
    simp only [Emission.empty, CompileContext.record_nil, String.append_empty]
    exact .single rfl
  | node :: rest =>
    have hnode := steps_node ctx owner ho (node.placeIn place) node
      (.siblings (place.map (· + node.blockCount)) rest :: tasks) code codes
    have hrest := fun mistakes code => steps_siblings (ctx.record mistakes) owner ho
      (place.map (· + node.blockCount)) rest tasks code codes
    rw [compileNodes, ho.compileNode_stack, Emission.code_append, Emission.diagnostics_append,
      CompileContext.record_append, ← String.append_assoc]
    exact .head rfl (hnode.trans (hrest _ _))
termination_by (ctx.chain.depth - ctx.currentLayer, sizeOf nodes)

end

end PassState

end LayeredTags
