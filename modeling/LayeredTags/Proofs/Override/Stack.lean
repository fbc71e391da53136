import LayeredTags.Override.Stack

/-!
# Entering and leaving on the stack of overridden blocks

What a pass sees of the stack are the names on it and what the innermost layered block still
inherits. Both are followed through every operation, and each operation that leaves is shown to
undo the one that entered.

* `OverrideStack.names`, `OverrideStack.inherited?`: the two observations.
* `OverrideStack.pop_push`, `OverrideStack.retreat_advance`: leaving restores the stack.
* `OverrideStack.advance_of_inherited`: a call of the parent takes the first inherited body.
* `OverrideStack.AtLayer`: the layer of the body that the innermost layered block has reached.
-/

namespace LayeredTags.OverrideStack

variable {β : Type} {s : OverrideStack β} {name : String}

/-- The names of the blocks that are being compiled, the innermost first. -/
def names (s : OverrideStack β) : List String :=
  s.frames.map (·.name)

/-- The innermost layered block and its bodies behind the one that has been reached. -/
def inherited? (s : OverrideStack β) : Option (String × List (Nat × β)) :=
  (s.frames.find? Frame.isLayered).map fun f => (f.name, f.bodies.drop (f.cursor + 1))

@[simp] theorem names_empty : (empty : OverrideStack β).names = [] := rfl

@[simp] theorem inherited?_empty : (empty : OverrideStack β).inherited? = none := rfl

theorem isActive_iff : s.isActive name = true ↔ name ∈ s.names := by
  simp [isActive, frame?, names, List.find?_isSome]

theorem isActive_eq_false_iff : s.isActive name = false ↔ name ∉ s.names := by
  rw [← isActive_iff, Bool.not_eq_true]

theorem current?_eq_head? : s.current? = s.names.head? := by
  simp [current?, names]

/-! ## Entering and leaving a block -/

theorem push_of_notMem {bodies : List (Nat × β)} (hname : name ∉ s.names) (hbodies : bodies ≠ []) :
    s.push name bodies = ⟨⟨name, bodies, 0⟩ :: s.frames⟩ := by
  have hactive := isActive_eq_false_iff.mpr hname
  rw [push, if_pos (by simp [mayPush, hactive, hbodies])]

theorem names_push {bodies : List (Nat × β)} (hname : name ∉ s.names) (hbodies : bodies ≠ []) :
    (s.push name bodies).names = name :: s.names := by
  rw [push_of_notMem hname hbodies]
  rfl

theorem pop_push {bodies : List (Nat × β)} (hname : name ∉ s.names) (hbodies : bodies ≠ []) :
    (s.push name bodies).pop name = s := by
  rw [push_of_notMem hname hbodies, pop, List.eraseP_cons_of_pos (by simp)]

theorem inherited?_push_singleton {body : Nat × β} (hname : name ∉ s.names) :
    (s.push name [body]).inherited? = s.inherited? := by
  rw [push_of_notMem hname (by simp), inherited?,
    List.find?_cons_of_neg (by simp [Frame.isLayered])]
  rfl

theorem inherited?_push_cons {body : Nat × β} {rest : List (Nat × β)} (hname : name ∉ s.names)
    (hrest : rest ≠ []) : (s.push name (body :: rest)).inherited? = some (name, rest) := by
  have hlayered : Frame.isLayered ⟨name, body :: rest, 0⟩ = true := by
    simpa [Frame.isLayered] using List.length_pos_iff.mpr hrest
  rw [push_of_notMem hname (by simp), inherited?, List.find?_cons_of_pos hlayered]
  rfl

/-! ## Entering and leaving a less specific body -/

theorem advanceFrames_eq_none {frames : List (Frame β)}
    (h : ∀ f, frames.find? Frame.isLayered = some f → f.bodies.drop (f.cursor + 1) = []) :
    advanceFrames frames = none := by
  induction frames with
  | nil => rfl
  | cons f rest ih =>
    rw [advanceFrames]
    by_cases hlayered : f.isLayered
    · have hdrop := h f (List.find?_cons_of_pos hlayered)
      have hnext : f.next? = none := by
        rw [Frame.next?, List.getElem?_eq_none_iff]
        exact List.drop_eq_nil_iff.mp hdrop
      rw [if_pos hlayered, hnext]
      rfl
    · have hrest : advanceFrames rest = none :=
        ih fun g hg => h g (by rw [List.find?_cons_of_neg hlayered, hg])
      rw [if_neg hlayered, hrest]
      rfl

theorem advance_of_inherited_none (h : s.inherited? = none) : s.advance = none := by
  apply advanceFrames_eq_none
  intro f hf
  rw [inherited?, hf] at h
  cases h

theorem advance_of_inherited_nil (h : s.inherited? = some (name, [])) : s.advance = none := by
  apply advanceFrames_eq_none
  intro f hf
  rw [inherited?, hf] at h
  simpa using congrArg (Option.map Prod.snd) h

theorem advanceFrames_of_find? {frames : List (Frame β)} {f : Frame β} {layer : Nat} {body : β}
    {rest : List (Nat × β)} (hf : frames.find? Frame.isLayered = some f)
    (hdrop : f.bodies.drop (f.cursor + 1) = (layer, body) :: rest) :
    ∃ t : OverrideStack β, advanceFrames frames = some ⟨f.name, layer, body, t⟩ ∧
      t.names = frames.map (·.name) ∧ t.inherited? = some (f.name, rest) := by
  induction frames with
  | nil => cases hf
  | cons g others ih =>
    rw [advanceFrames]
    by_cases hlayered : g.isLayered
    · rw [List.find?_cons_of_pos hlayered] at hf
      obtain rfl : g = f := Option.some.inj hf
      have hnext : g.next? = some (layer, body) := by
        rw [Frame.next?, ← List.head?_drop, hdrop, List.head?_cons]
      have hrest : g.bodies.drop (g.cursor + 1 + 1) = rest := by
        rw [← List.drop_drop, hdrop]
        rfl
      refine ⟨⟨{ g with cursor := g.cursor + 1 } :: others⟩, ?_, rfl, ?_⟩
      · rw [if_pos hlayered, hnext]
        rfl
      · rw [inherited?, List.find?_cons_of_pos (by exact hlayered), Option.map_some, hrest]
    · rw [List.find?_cons_of_neg hlayered] at hf
      obtain ⟨t, hadvance, hnames, hinherited⟩ := ih hf
      refine ⟨⟨g :: t.frames⟩, ?_, ?_, ?_⟩
      · rw [if_neg hlayered, hadvance]
        rfl
      · rw [names, List.map_cons, List.map_cons, ← hnames, names]
      · rw [inherited?, List.find?_cons_of_neg hlayered, ← inherited?, hinherited]

theorem advance_of_inherited {layer : Nat} {body : β} {rest : List (Nat × β)}
    (h : s.inherited? = some (name, (layer, body) :: rest)) :
    ∃ t : OverrideStack β, s.advance = some ⟨name, layer, body, t⟩ ∧ t.names = s.names ∧
      t.inherited? = some (name, rest) := by
  obtain ⟨f, hf, hpair⟩ := Option.map_eq_some_iff.mp h
  obtain ⟨rfl, hdrop⟩ := Prod.mk.inj hpair
  exact advanceFrames_of_find? hf hdrop

theorem retreat_of_notMem (hname : name ∉ s.names) : s.retreat name = s := by
  have hfix : ∀ f ∈ s.frames,
      (if f.name = name then { f with cursor := f.cursor - 1 } else f) = f := by
    intro f hf
    have hne : f.name ≠ name := by
      rintro rfl
      exact hname (List.mem_map_of_mem hf)
    exact if_neg hne
  rw [retreat, List.map_congr_left hfix, List.map_id']

/-- The frame that a call of the parent moves is the only one of its name, so going back in it
restores all frames. -/
theorem retreat_advanceFrames {frames : List (Frame β)} {step : Advance β}
    (hdistinct : (frames.map (·.name)).Nodup) (h : advanceFrames frames = some step) :
    step.stack.retreat step.name = ⟨frames⟩ ∧ step.name ∈ frames.map (·.name) := by
  induction frames generalizing step with
  | nil => cases h
  | cons f rest ih =>
    obtain ⟨hfresh, hrest⟩ := List.nodup_cons.mp hdistinct
    rw [advanceFrames] at h
    by_cases hlayered : f.isLayered
    · rw [if_pos hlayered] at h
      obtain ⟨⟨layer, body⟩, -, rfl⟩ := Option.map_eq_some_iff.mp h
      have hothers : (⟨rest⟩ : OverrideStack β).retreat f.name = ⟨rest⟩ := retreat_of_notMem hfresh
      refine ⟨?_, List.mem_cons_self⟩
      simp only [retreat, OverrideStack.mk.injEq] at hothers ⊢
      rw [List.map_cons, if_pos rfl, hothers, Nat.add_sub_cancel]
    · rw [if_neg hlayered] at h
      obtain ⟨a, ha, rfl⟩ := Option.map_eq_some_iff.mp h
      obtain ⟨hback, hmem⟩ := ih hrest ha
      refine ⟨?_, List.mem_cons_of_mem _ hmem⟩
      have hne : f.name ≠ a.name := by
        intro heq
        rw [← heq] at hmem
        exact hfresh hmem
      simp only [retreat, OverrideStack.mk.injEq] at hback ⊢
      rw [List.map_cons, if_neg hne, hback]

theorem retreat_advance {step : Advance β} (hdistinct : s.names.Nodup)
    (h : s.advance = some step) : step.stack.retreat step.name = s :=
  (retreat_advanceFrames hdistinct h).1

/-! ## The layer that has been reached -/

/-- The innermost layered block, if there is one, has reached its body in a layer. -/
def AtLayer (s : OverrideStack β) (layer : Nat) : Prop :=
  ∀ f, s.frames.find? Frame.isLayered = some f → ∃ body, f.bodies[f.cursor]? = some (layer, body)

theorem atLayer_empty (layer : Nat) : (empty : OverrideStack β).AtLayer layer := by
  intro f hf
  cases hf

theorem AtLayer.push {layer : Nat} (h : s.AtLayer layer) (hname : name ∉ s.names) (body : β)
    (rest : List (Nat × β)) : (s.push name ((layer, body) :: rest)).AtLayer layer := by
  rw [push_of_notMem hname (by simp)]
  intro f hf
  by_cases hlayered : Frame.isLayered ⟨name, (layer, body) :: rest, 0⟩
  · rw [List.find?_cons_of_pos hlayered] at hf
    obtain rfl := Option.some.inj hf
    exact ⟨body, rfl⟩
  · rw [List.find?_cons_of_neg hlayered] at hf
    exact h f hf

theorem atLayer_of_advanceFrames {frames : List (Frame β)} {step : Advance β}
    (h : advanceFrames frames = some step) : step.stack.AtLayer step.layer := by
  induction frames generalizing step with
  | nil => cases h
  | cons g rest ih =>
    rw [advanceFrames] at h
    intro f hf
    by_cases hlayered : g.isLayered
    · rw [if_pos hlayered] at h
      obtain ⟨⟨layer, body⟩, hnext, rfl⟩ := Option.map_eq_some_iff.mp h
      rw [List.find?_cons_of_pos (by exact hlayered)] at hf
      obtain rfl := Option.some.inj hf
      exact ⟨body, hnext⟩
    · rw [if_neg hlayered] at h
      obtain ⟨a, ha, rfl⟩ := Option.map_eq_some_iff.mp h
      rw [List.find?_cons_of_neg hlayered] at hf
      exact ih ha f hf

theorem atLayer_of_advance {step : Advance β} (h : s.advance = some step) :
    step.stack.AtLayer step.layer :=
  atLayer_of_advanceFrames h

end LayeredTags.OverrideStack
