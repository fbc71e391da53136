import LayeredTags.Proofs.Compile.Restoration

/-!
# Every pass ends

A call of the parent leads into a tree that need not be smaller than the one it stands in, and that
may call for further bodies. What makes a pass end is the layer: as long as some block is layered,
the current layer is the one that the innermost layered block has reached, so every call of the
parent leads to a less specific layer. Bodies can lie inside each other only as deep as there are
layers, and calls inside each other become smaller.

* `PassState.calls`: the calls that lie inside each other at a moment.
* `PassState.bodyDepth`: how many less specific bodies lie inside each other.
* `pass_ends`: the bounds at every moment, and the end that every moment leads to.
-/

namespace LayeredTags

/-- The task that ends a call of the parent. -/
def Task.endsBody : Task → Bool
  | .finish _ _ (.goBack _) => true
  | .finish _ _ .nothing | .finish _ _ (.leave _) | .node _ _ | .siblings _ _ => false

namespace PassState

/-- The calls of the compilation that lie inside each other, the innermost first, with the layers in
which they were made. A call that is about to be made counts. -/
def calls (s : PassState) : List (Nat × Node) :=
  match s.tasks with
  | .node _ node :: rest => (s.ctx.currentLayer, node) :: callers rest
  | tasks => callers tasks

/-- The number of less specific bodies that lie inside each other. -/
def bodyDepth (s : PassState) : Nat :=
  s.tasks.countP Task.endsBody

end PassState

namespace Resumes

variable {chain : OverrideChain} {layer : Nat} {stack : OverrideStack Body} {tasks : List Task}

theorem countP_endsBody (h : Resumes chain layer stack tasks) :
    tasks.countP Task.endsBody ≤ layer ∧
      (tasks.countP Task.endsBody ≠ 0 → layer < chain.depth) := by
  induction h with
  | done => simp
  | node _ _ ih | siblings _ _ ih | finish _ _ ih | leave _ _ _ _ ih =>
    rw [List.countP_cons_of_neg (by simp [Task.endsBody])]
    exact ih
  | goBack _ _ hless _ _ ih =>
    rw [List.countP_cons_of_pos (by rfl)]
    exact ⟨by omega, fun _ => hless.2⟩

theorem pairwise_callers (h : Resumes chain layer stack tasks) :
    (callers tasks).Pairwise (Smaller chain) := by
  induction h with
  | done => exact .nil
  | node _ _ ih | siblings _ _ ih => exact ih
  | finish smaller _ ih => exact .cons smaller ih
  | leave _ _ smaller _ ih => exact .cons smaller ih
  | goBack _ _ _ smaller _ ih => exact .cons smaller ih

end Resumes

theorem wellFounded_smaller (chain : OverrideChain) : WellFounded (Smaller chain) :=
  InvImage.wf (fun call : Nat × Node => (chain.depth - call.1, sizeOf call.2))
    (WellFounded.prod_lex wellFounded_lt wellFounded_lt)

namespace PassState

variable {s t : PassState}

theorem chain_call (s : PassState) (place : Option Nat) (node : Node) :
    (s.call place node).ctx.chain = s.ctx.chain := by
  cases node with
  | root children => rfl
  | text content => rfl
  | value tag => rfl
  | block tag closed children =>
    cases closed with
    | false => rfl
    | true =>
      cases hbodies : s.ctx.chain.layeredBodies? s.ctx.currentLayer place tag.name s.ctx.stack with
      | none => rw [call_block_of_none hbodies]; rfl
      | some bodies => rw [call_block_of_some hbodies]; rfl
  | parent tag =>
    cases hadvance : s.ctx.stack.advance with
    | none => rw [call_parent_of_none hadvance]; rfl
    | some next => rw [call_parent_of_some hadvance]; rfl

theorem chain_step (h : s.step = some t) : t.ctx.chain = s.ctx.chain := by
  unfold step at h
  split at h
  · cases h
  · obtain rfl := Option.some.inj h
    exact chain_call _ _ _
  · obtain rfl := Option.some.inj h
    rfl
  · obtain rfl := Option.some.inj h
    rfl
  · rename_i undo _ _
    obtain rfl := Option.some.inj h
    cases undo <;> rfl

theorem chain_of_steps (h : Steps s t) : t.ctx.chain = s.ctx.chain := by
  induction h with
  | refl => rfl
  | tail _ hstep ih => exact (chain_step hstep).trans ih

theorem pairwise_calls (h : s.Resumable) : s.calls.Pairwise (Smaller s.ctx.chain) := by
  have hcallers := h.pairwise_callers
  unfold calls
  split
  · rename_i place node rest htasks
    unfold Resumable at h
    rw [htasks] at h hcallers
    cases h with
    | node smaller _ => exact .cons smaller hcallers
  · exact hcallers

/-- The machine has one way to go, so every state that it comes to leads to a state at which it
ends. -/
theorem steps_of_finished {ctx : CompileContext} {code : String} (h : Steps s t)
    (hend : Steps s (ctx.finished code)) : Steps t (ctx.finished code) := by
  have hunique : Relator.RightUnique fun s t : PassState => s.step = some t := by
    intro s t u ht hu
    exact Option.some.inj (ht.symm.trans hu)
  rcases Relation.ReflTransGen.total_of_right_unique hunique h hend with hon | hback
  · exact hon
  · rcases Relation.ReflTransGen.cases_head hback with rfl | ⟨u, hu, -⟩
    · exact .refl
    · cases hu

end PassState

open PassState in
/-- **Every pass ends.** At every moment of a pass over any node in a fresh context the current
layer is the one that the innermost layered block has reached, a call of the parent leads to a less
specific layer, fewer bodies lie inside each other than there are layers, and the calls that lie
inside each other become smaller, which cannot go on for ever. Every moment leads to the end, with
what compiling the node yields. -/
theorem pass_ends (registry : Registry) (roots : List Node) (place : Option Nat) (node : Node)
    {s : PassState} (hs : Steps ((CompileContext.ofRoots registry roots).begin [(place, node)]) s) :
    s.ctx.stack.AtLayer s.ctx.currentLayer ∧
      (∀ next, s.ctx.stack.advance = some next →
        s.ctx.currentLayer < next.layer ∧ next.layer < roots.length) ∧
      s.bodyDepth ≤ roots.length - 1 ∧
      s.calls.Pairwise (Smaller (.ofRoots roots)) ∧ WellFounded (Smaller (.ofRoots roots)) ∧
      ∃ emission ctx, (CompileContext.ofRoots registry roots).compile place node = (emission, ctx) ∧
        Steps s (ctx.finished emission.code) := by
  have hresumable := resumable_of_steps (resumable_begin registry roots [(place, node)]) hs
  have hchain : s.ctx.chain = .ofRoots roots := chain_of_steps hs
  have hdepth : s.ctx.chain.depth = roots.length := by
    rw [hchain]
    simp [OverrideChain.depth, OverrideChain.ofRoots]
  have hsound := hresumable.sound
  obtain ⟨hcompile, hend⟩ := compile_of_sound (.ofRoots registry roots) place node Sound.empty
  refine ⟨hsound.atLayer, ?_, ?_, ?_, wellFounded_smaller _, _, _, hcompile,
    steps_of_finished hs hend⟩
  · intro next hadvance
    have hless := (hsound.advance hadvance).2.2
    rwa [hdepth] at hless
  · obtain ⟨hle, hlt⟩ := hresumable.countP_endsBody
    rw [hdepth] at hlt
    unfold bodyDepth
    omega
  · have hpairwise := pairwise_calls hresumable
    rwa [hchain] at hpairwise

open PassState in
/-- In the second layer one body lies inside the call for the first tree, and four calls lie inside
each other. -/
theorem pass_ends_insideBody :
    ∃ s, Steps ((CompileContext.ofRoots .empty callingChain).begin
        [(some 0, callingChain.headD (.text ""))]) s ∧
      s.ctx.currentLayer = 1 ∧ s.bodyDepth = 1 ∧ s.calls.map Prod.fst = [1, 0, 0, 0] ∧
      s.bodyDepth ≤ callingChain.length - 1 ∧
      ∃ emission ctx, (CompileContext.ofRoots .empty callingChain).compile (some 0)
        (callingChain.headD (.text "")) = (emission, ctx) ∧
          Steps s (ctx.finished emission.code) := by
  have hs : Steps ((CompileContext.ofRoots .empty callingChain).begin
      [(some 0, callingChain.headD (.text ""))]) _ :=
    .head rfl (.head rfl (.head rfl (.head rfl (.head rfl (.head rfl (.head rfl (.head rfl
      .refl)))))))
  obtain ⟨-, -, hdepth, -, -, hend⟩ := pass_ends .empty callingChain _ _ hs
  exact ⟨_, hs, rfl, rfl, rfl, hdepth, hend⟩

end LayeredTags
