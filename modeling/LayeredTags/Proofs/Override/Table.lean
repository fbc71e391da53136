import LayeredTags.Proofs.Override.Stack
import Mathlib.Logic.Function.Basic

/-!
# The stack of overridden blocks as a table

A table keeps the bodies and the cursor of every active name in a map, and the order of the active
names in a list of its own. Calls in any order and with any names keep the two in step, so the table
is the stack of overridden blocks with its frames taken apart: both give the same answers.

* `StackCall`, `StackAnswer`, `runCalls`: calls, and what they give one after the other.
* `OverrideTable`: the map and the list, with the calls that change them.
* `OverrideTable.Coherent`: the map and the list name the same blocks, and every cursor is in range.
* `OverrideTable.perform_toStack`: one call does the same to the table and to the stack.
* `OverrideTable.Descends`: consecutive calls of the parent go down the rest of one entry.
* `OverrideTable.runCalls_inStep`: what holds behind all calls.
-/

namespace LayeredTags

variable {β : Type}

/-! ## Calls -/

/-- A call of a stack of overridden blocks. -/
inductive StackCall (β : Type) where
  | push (name : String) (bodies : List (Nat × β))
  | pop (name : String)
  | advance
  | retreat (name : String)

inductive StackAnswer (β : Type) where
  /-- whether the block was entered -/
  | entered (accepted : Bool)
  /-- the name of a block with its next body and the layer of that body, if there is a next one -/
  | reached (step : Option (String × Nat × β))
  | done

/-- What calls give one after the other, and the state behind them. -/
def runCalls {σ : Type} (perform : σ → StackCall β → StackAnswer β × σ) (s : σ) :
    List (StackCall β) → List (StackAnswer β) × σ
  | [] => ([], s)
  | call :: rest =>
    let (answer, behind) := perform s call
    let (answers, final) := runCalls perform behind rest
    (answer :: answers, final)

def OverrideStack.perform (s : OverrideStack β) : StackCall β → StackAnswer β × OverrideStack β
  | .push name bodies => (.entered (s.mayPush name bodies), s.push name bodies)
  | .pop name => (.done, s.pop name)
  | .advance =>
    match s.advance with
    | some step => (.reached (some (step.name, step.layer, step.body)), step.stack)
    | none => (.reached none, s)
  | .retreat name => (.done, s.retreat name)

/-! ## The table -/

/-- The bodies of an active name with their layers, and the index of the body that has been
reached. -/
structure TableEntry (β : Type) where
  bodies : List (Nat × β)
  cursor : Nat

namespace TableEntry

def isLayered (e : TableEntry β) : Bool :=
  1 < e.bodies.length

/-- The frame of a name with this entry. -/
def frame (e : TableEntry β) (name : String) : Frame β :=
  ⟨name, e.bodies, e.cursor⟩

@[simp] theorem name_frame (e : TableEntry β) (name : String) : (e.frame name).name = name := rfl

end TableEntry

/-- The entries of names, and the active names, the innermost first. -/
structure OverrideTable (β : Type) where
  entries : String → Option (TableEntry β)
  active : List String

namespace OverrideTable

def empty : OverrideTable β := ⟨fun _ => none, []⟩

/-- Gives a name an entry, and leaves the list of active names as it is. -/
def put (t : OverrideTable β) (name : String) (e : TableEntry β) : OverrideTable β :=
  ⟨Function.update t.entries name (some e), t.active⟩

/-- Enters a block unless its name is active or it has no body. -/
def push (t : OverrideTable β) (name : String) (bodies : List (Nat × β)) : Bool × OverrideTable β :=
  if (t.entries name).isSome || bodies.isEmpty then (false, t)
  else (true, ⟨(t.put name ⟨bodies, 0⟩).entries, name :: t.active⟩)

/-- Removes the entry of a name, and the name from the list if there was an entry. -/
def pop (t : OverrideTable β) (name : String) : OverrideTable β :=
  match t.entries name with
  | some _ => ⟨Function.update t.entries name none, t.active.erase name⟩
  | none => t

/-- The innermost name whose entry has more than one body, with the entry. -/
def layered? (t : OverrideTable β) : Option (String × TableEntry β) :=
  (t.active.find? fun name => (t.entries name).any TableEntry.isLayered).bind fun name =>
    (t.entries name).map (name, ·)

/-- Moves the cursor of the innermost layered entry to its next body, if it has one. -/
def advance (t : OverrideTable β) : Option (String × Nat × β) × OverrideTable β :=
  match t.layered? with
  | some (name, e) =>
    if h : e.cursor + 1 < e.bodies.length then
      (some (name, e.bodies[e.cursor + 1]), t.put name { e with cursor := e.cursor + 1 })
    else (none, t)
  | none => (none, t)

/-- Moves the cursor of a name one body back. -/
def retreat (t : OverrideTable β) (name : String) : OverrideTable β :=
  match t.entries name with
  | some e => t.put name { e with cursor := e.cursor - 1 }
  | none => t

def perform (t : OverrideTable β) : StackCall β → StackAnswer β × OverrideTable β
  | .push name bodies => (.entered (t.push name bodies).1, (t.push name bodies).2)
  | .pop name => (.done, t.pop name)
  | .advance => (.reached t.advance.1, t.advance.2)
  | .retreat name => (.done, t.retreat name)

/-- The table behind calls on an empty one. -/
def behind (calls : List (StackCall β)) : OverrideTable β :=
  (runCalls perform empty calls).2

variable {t : OverrideTable β} {name other : String} {e f : TableEntry β}
  {bodies : List (Nat × β)}

@[simp] theorem active_put : (t.put name e).active = t.active := rfl

@[simp] theorem entries_put_self : (t.put name e).entries name = some e := by
  simp only [put, Function.update_self]

theorem entries_put_of_ne (h : other ≠ name) : (t.put name e).entries other = t.entries other := by
  simp only [put, Function.update_of_ne h]

theorem put_put : (t.put name e).put name f = t.put name f := by
  rw [put, put, Function.update_idem]
  rfl

theorem put_eq_self (h : t.entries name = some e) : t.put name e = t := by
  rw [put, ← h, Function.update_eq_self]

theorem layered?_eq_some_iff : t.layered? = some (name, e) ↔
    t.active.find? (fun name => (t.entries name).any TableEntry.isLayered) = some name ∧
      t.entries name = some e := by
  rw [layered?, Option.bind_eq_some_iff]
  constructor
  · rintro ⟨found, hfound, hentry⟩
    obtain ⟨_, he, hpair⟩ := Option.map_eq_some_iff.mp hentry
    obtain ⟨rfl, rfl⟩ := Prod.mk.inj hpair
    exact ⟨hfound, he⟩
  · rintro ⟨hfound, he⟩
    exact ⟨name, hfound, Option.map_eq_some_iff.mpr ⟨e, he, rfl⟩⟩

theorem entries_of_layered? (h : t.layered? = some (name, e)) : t.entries name = some e :=
  (layered?_eq_some_iff.mp h).2

theorem advance_of_layered? (h : t.layered? = some (name, e))
    (hnext : e.cursor + 1 < e.bodies.length) :
    t.advance =
      (some (name, e.bodies[e.cursor + 1]), t.put name { e with cursor := e.cursor + 1 }) := by
  simp only [advance, h, dif_pos hnext]

theorem advance_of_exhausted (h : t.layered? = some (name, e))
    (hlast : ¬ e.cursor + 1 < e.bodies.length) : t.advance = (none, t) := by
  simp only [advance, h, dif_neg hlast]

theorem advance_of_layered?_eq_none (h : t.layered? = none) : t.advance = (none, t) := by
  simp only [advance, h]

/-- A call of the parent finds nothing and changes nothing, or it moves the cursor of the innermost
layered entry. -/
theorem advance_cases (t : OverrideTable β) : t.advance = (none, t) ∨
    ∃ name e, ∃ hnext : e.cursor + 1 < e.bodies.length, t.layered? = some (name, e) ∧
      t.advance =
        (some (name, e.bodies[e.cursor + 1]), t.put name { e with cursor := e.cursor + 1 }) := by
  cases hlayered : t.layered? with
  | none => exact .inl (advance_of_layered?_eq_none hlayered)
  | some pair =>
    obtain ⟨name, e⟩ := pair
    by_cases hnext : e.cursor + 1 < e.bodies.length
    · exact .inr ⟨name, e, hnext, rfl, advance_of_layered? hlayered hnext⟩
    · exact .inl (advance_of_exhausted hlayered hnext)

theorem advance_eq_self (h : t.advance.1 = none) : t.advance.2 = t := by
  rcases t.advance_cases with hadvance | ⟨_, _, _, -, hadvance⟩
  · rw [hadvance]
  · rw [hadvance] at h
    cases h

theorem retreat_advance {step : String × Nat × β} (h : t.advance.1 = some step) :
    t.advance.2.retreat step.1 = t := by
  rcases t.advance_cases with hadvance | ⟨name, e, _, hlayered, hadvance⟩
  · rw [hadvance] at h
    cases h
  · rw [hadvance] at h ⊢
    obtain rfl := Option.some.inj h
    simp only [retreat, entries_put_self, put_put, Nat.add_sub_cancel]
    exact put_eq_self (entries_of_layered? hlayered)

/-! ## The map and the list in step -/

/-- The list has every name once and names exactly the entries of the map. Every entry has a body,
and its cursor points to one. -/
structure Coherent (t : OverrideTable β) : Prop where
  distinct : t.active.Nodup
  keys : ∀ name, name ∈ t.active ↔ t.entries name ≠ none
  inRange : ∀ name e, t.entries name = some e → e.bodies ≠ [] ∧ e.cursor < e.bodies.length

namespace Coherent

theorem empty : (empty : OverrideTable β).Coherent where
  distinct := .nil
  keys _ := iff_of_false List.not_mem_nil (not_not_intro rfl)
  inRange _ _ h := nomatch h

theorem inRange_put (ht : t.Coherent) (he : e.cursor < e.bodies.length) :
    (t.put name e).entries other = some f → f.bodies ≠ [] ∧ f.cursor < f.bodies.length := by
  intro hf
  by_cases hother : other = name
  · subst hother
    rw [entries_put_self] at hf
    obtain rfl := Option.some.inj hf
    exact ⟨List.ne_nil_of_length_pos (by omega), he⟩
  · rw [entries_put_of_ne hother] at hf
    exact ht.inRange other f hf

theorem put (ht : t.Coherent) (hname : t.entries name ≠ none) (he : e.cursor < e.bodies.length) :
    (t.put name e).Coherent where
  distinct := ht.distinct
  keys other := by
    rw [active_put, ht.keys]
    by_cases hother : other = name
    · subst hother
      rw [entries_put_self]
      exact iff_of_true hname (Option.some_ne_none e)
    · rw [entries_put_of_ne hother]
  inRange _ _ := ht.inRange_put he

theorem push (ht : t.Coherent) (name : String) (bodies : List (Nat × β)) :
    (t.push name bodies).2.Coherent := by
  rw [OverrideTable.push]
  split
  · exact ht
  · rename_i hnot
    rw [Bool.or_eq_true, not_or, Option.isSome_iff_ne_none, not_not, List.isEmpty_iff] at hnot
    obtain ⟨hnone, hbodies⟩ := hnot
    have hfresh : name ∉ t.active := fun hmem => (ht.keys name).mp hmem hnone
    refine ⟨List.nodup_cons.mpr ⟨hfresh, ht.distinct⟩, fun other => ?_, fun _ _ =>
      ht.inRange_put (List.length_pos_iff.mpr hbodies)⟩
    by_cases hother : other = name
    · subst hother
      exact iff_of_true List.mem_cons_self (by rw [entries_put_self]; exact Option.some_ne_none _)
    · rw [entries_put_of_ne hother, List.mem_cons, or_iff_right hother, ht.keys]

theorem pop (ht : t.Coherent) (name : String) : (t.pop name).Coherent := by
  rw [OverrideTable.pop]
  split
  · refine ⟨ht.distinct.erase name, fun other => ?_, fun other f hf => ?_⟩
    · rw [ht.distinct.mem_erase_iff, ht.keys]
      by_cases hother : other = name
      · subst hother
        simp only [Function.update_self, ne_eq, not_true_eq_false, false_and]
      · simp only [Function.update_of_ne hother, ne_eq, hother, not_false_eq_true, true_and]
    · by_cases hother : other = name
      · subst hother
        simp only [Function.update_self, reduceCtorEq] at hf
      · simp only [Function.update_of_ne hother] at hf
        exact ht.inRange other f hf
  · exact ht

theorem advance (ht : t.Coherent) : t.advance.2.Coherent := by
  rcases t.advance_cases with hadvance | ⟨name, e, hnext, hlayered, hadvance⟩
  · rw [hadvance]
    exact ht
  · rw [hadvance]
    exact ht.put (entries_of_layered? hlayered ▸ Option.some_ne_none e) hnext

theorem retreat (ht : t.Coherent) (name : String) : (t.retreat name).Coherent := by
  rw [OverrideTable.retreat]
  split
  · rename_i e hentry
    have hcursor := (ht.inRange name e hentry).2
    exact ht.put (hentry ▸ Option.some_ne_none e) (Nat.lt_of_le_of_lt (Nat.sub_le _ 1) hcursor)
  · exact ht

theorem perform (ht : t.Coherent) (call : StackCall β) : (t.perform call).2.Coherent := by
  cases call with
  | push name bodies => exact ht.push name bodies
  | pop name => exact ht.pop name
  | advance => exact ht.advance
  | retreat name => exact ht.retreat name

end Coherent

/-! ## The frames of a table -/

/-- The frames of a list of names, for those that have an entry. -/
def framesOf (entries : String → Option (TableEntry β)) (names : List String) : List (Frame β) :=
  names.filterMap fun name => (entries name).map (·.frame name)

/-- The stack whose frames are the entries in the order of the list. -/
def toStack (t : OverrideTable β) : OverrideStack β :=
  ⟨framesOf t.entries t.active⟩

section Frames

variable {entries : String → Option (TableEntry β)} {names : List String}

theorem framesOf_cons (h : entries name = some e) :
    framesOf entries (name :: names) = e.frame name :: framesOf entries names := by
  rw [framesOf, List.filterMap_cons, h]
  rfl

theorem framesOf_update_of_notMem (h : name ∉ names) (changed : Option (TableEntry β)) :
    framesOf (Function.update entries name changed) names = framesOf entries names := by
  induction names with
  | nil => rfl
  | cons first rest ih =>
    rw [List.mem_cons, not_or] at h
    rw [framesOf, framesOf, List.filterMap_cons, List.filterMap_cons,
      Function.update_of_ne (Ne.symm h.1), ← framesOf, ih h.2]
    rfl

theorem eq_frame_of_mem_framesOf {g : Frame β} (h : g ∈ framesOf entries names) :
    ∃ e, entries g.name = some e ∧ g = e.frame g.name := by
  obtain ⟨name, -, hg⟩ := List.mem_filterMap.mp h
  obtain ⟨e, he, rfl⟩ := Option.map_eq_some_iff.mp hg
  exact ⟨e, he, rfl⟩

theorem framesOf_update (h : entries name = some e) :
    framesOf (Function.update entries name (some f)) names =
      (framesOf entries names).map fun g => if g.name = name then f.frame name else g := by
  induction names with
  | nil => rfl
  | cons first rest ih =>
    by_cases hname : first = name
    · subst hname
      rw [framesOf_cons h, framesOf_cons (Function.update_self first (some f) entries), ih,
        List.map_cons, if_pos (e.name_frame first)]
    · have hsame : Function.update entries name (some f) first = entries first :=
        Function.update_of_ne hname _ _
      cases hfirst : entries first with
      | none =>
        rw [framesOf, framesOf, List.filterMap_cons, List.filterMap_cons, hsame, hfirst,
          ← framesOf, ih]
        rfl
      | some g =>
        rw [framesOf_cons hfirst, framesOf_cons (hsame.trans hfirst), ih, List.map_cons,
          if_neg (by exact hname)]

theorem map_name_framesOf (h : ∀ name ∈ names, entries name ≠ none) :
    (framesOf entries names).map (·.name) = names := by
  induction names with
  | nil => rfl
  | cons name rest ih =>
    obtain ⟨hname, hrest⟩ := List.forall_mem_cons.mp h
    obtain ⟨e, he⟩ := Option.ne_none_iff_exists'.mp hname
    rw [framesOf_cons he, List.map_cons, ih hrest]
    rfl

theorem eraseP_framesOf (hdistinct : names.Nodup) (h : ∀ name ∈ names, entries name ≠ none)
    (name : String) : (framesOf entries names).eraseP (·.name = name) =
      framesOf (Function.update entries name none) (names.erase name) := by
  induction names with
  | nil => rfl
  | cons first rest ih =>
    obtain ⟨hfirst, hrest⟩ := List.forall_mem_cons.mp h
    obtain ⟨hfresh, hdistinct⟩ := List.nodup_cons.mp hdistinct
    obtain ⟨e, he⟩ := Option.ne_none_iff_exists'.mp hfirst
    rw [framesOf_cons he]
    by_cases hname : first = name
    · subst hname
      rw [List.eraseP_cons_of_pos (by exact decide_eq_true rfl), List.erase_cons_head,
        framesOf_update_of_notMem hfresh]
    · have hsame : Function.update entries name none first = some e := by
        rw [Function.update_of_ne hname, he]
      rw [List.eraseP_cons_of_neg (by simp [hname]), ih hdistinct hrest,
        List.erase_cons_tail (by simp [hname]), framesOf_cons hsame]

end Frames

theorem advanceFrames_eq {frames : List (Frame β)} {g : Frame β}
    (hdistinct : (frames.map (·.name)).Nodup) (hg : frames.find? Frame.isLayered = some g) :
    OverrideStack.advanceFrames frames = g.next?.map fun (layer, body) => ⟨g.name, layer, body,
      ⟨frames.map fun f => if f.name = g.name then { g with cursor := g.cursor + 1 } else f⟩⟩ := by
  induction frames with
  | nil => cases hg
  | cons first rest ih =>
    obtain ⟨hfresh, hdistinct⟩ := List.nodup_cons.mp hdistinct
    rw [OverrideStack.advanceFrames]
    by_cases hlayered : first.isLayered
    · rw [List.find?_cons_of_pos hlayered] at hg
      obtain rfl := Option.some.inj hg
      have hothers : rest.map (fun f =>
          if f.name = first.name then { first with cursor := first.cursor + 1 } else f) = rest := by
        refine (List.map_congr_left fun f hf => if_neg fun heq => ?_).trans (List.map_id' rest)
        exact hfresh (List.mem_map.mpr ⟨f, hf, heq⟩)
      rw [if_pos hlayered, List.map_cons, if_pos rfl, hothers]
    · rw [List.find?_cons_of_neg hlayered] at hg
      have hne : first.name ≠ g.name := fun heq =>
        hfresh (List.mem_map.mpr ⟨g, List.mem_of_find?_eq_some hg, heq.symm⟩)
      rw [if_neg hlayered, ih hdistinct hg, List.map_cons, if_neg hne, Option.map_map]
      rfl

/-! ## The table and the stack -/

theorem find?_toStack (t : OverrideTable β) : t.toStack.frames.find? Frame.isLayered =
    t.layered?.map fun (name, e) => e.frame name := by
  have hlayered : ∀ name, ((t.entries name).map (·.frame name)).any Frame.isLayered =
      (t.entries name).any TableEntry.isLayered := by
    intro name
    cases t.entries name <;> rfl
  rw [toStack, framesOf, List.find?_filterMap, layered?]
  simp only [hlayered, Option.map_bind]
  refine congrArg _ (funext fun name => ?_)
  rw [Function.comp_apply, Option.map_map]
  rfl

namespace Coherent

theorem ne_none_of_mem (ht : t.Coherent) : ∀ name ∈ t.active, t.entries name ≠ none :=
  fun name hname => (ht.keys name).mp hname

theorem names_toStack (ht : t.Coherent) : t.toStack.names = t.active :=
  map_name_framesOf ht.ne_none_of_mem

theorem isActive_toStack (ht : t.Coherent) (name : String) :
    t.toStack.isActive name = (t.entries name).isSome := by
  rw [Bool.eq_iff_iff, OverrideStack.isActive_iff, ht.names_toStack, ht.keys,
    Option.isSome_iff_ne_none]

theorem push_toStack (ht : t.Coherent) (name : String) (bodies : List (Nat × β)) :
    t.toStack.mayPush name bodies = (t.push name bodies).1 ∧
      t.toStack.push name bodies = (t.push name bodies).2.toStack := by
  have hmay : t.toStack.mayPush name bodies =
      !((t.entries name).isSome || bodies.isEmpty) := by
    rw [OverrideStack.mayPush, ht.isActive_toStack, Bool.not_or]
  rw [OverrideStack.push, hmay, OverrideTable.push]
  by_cases hrefused : ((t.entries name).isSome || bodies.isEmpty) = true
  · rw [if_pos hrefused, hrefused]
    exact ⟨rfl, rfl⟩
  · have hnone : t.entries name = none := by
      rw [Bool.or_eq_true, not_or, Option.isSome_iff_ne_none, not_not] at hrefused
      exact hrefused.1
    have hfresh : name ∉ t.active := fun hmem => (ht.keys name).mp hmem hnone
    rw [if_neg hrefused, eq_false_of_ne_true hrefused]
    refine ⟨rfl, congrArg OverrideStack.mk ?_⟩
    rw [framesOf_cons (entries_put_self)]
    exact congrArg (Frame.mk name bodies 0 :: ·) (framesOf_update_of_notMem hfresh _).symm

theorem pop_toStack (ht : t.Coherent) (name : String) :
    t.toStack.pop name = (t.pop name).toStack := by
  have herase := eraseP_framesOf ht.distinct ht.ne_none_of_mem name
  rw [OverrideTable.pop]
  cases hentry : t.entries name with
  | some e => exact congrArg OverrideStack.mk herase
  | none =>
    have hfresh : name ∉ t.active := fun hmem => (ht.keys name).mp hmem hentry
    rw [List.erase_of_not_mem hfresh, framesOf_update_of_notMem hfresh] at herase
    exact congrArg OverrideStack.mk herase

theorem put_toStack (hentry : t.entries name = some e) :
    (t.put name f).toStack =
      ⟨t.toStack.frames.map fun g => if g.name = name then f.frame name else g⟩ :=
  congrArg OverrideStack.mk (framesOf_update hentry)

theorem retreat_toStack (ht : t.Coherent) (name : String) :
    t.toStack.retreat name = (t.retreat name).toStack := by
  rw [OverrideTable.retreat]
  cases hentry : t.entries name with
  | none =>
    refine OverrideStack.retreat_of_notMem ?_
    rw [ht.names_toStack, ht.keys]
    exact not_not_intro hentry
  | some e =>
    rw [put_toStack hentry, OverrideStack.retreat]
    refine congrArg OverrideStack.mk (List.map_congr_left fun g hg => ?_)
    split
    · rename_i hname
      obtain ⟨e', he', hframe⟩ := eq_frame_of_mem_framesOf hg
      rw [hname, hentry] at he'
      obtain rfl := Option.some.inj he'
      rw [hframe, hname]
      rfl
    · rfl

theorem advance_toStack (ht : t.Coherent) :
    t.toStack.advance = t.advance.1.map fun (name, layer, body) =>
      ⟨name, layer, body, t.advance.2.toStack⟩ := by
  have hfind := t.find?_toStack
  have hdistinct : t.toStack.names.Nodup := ht.names_toStack ▸ ht.distinct
  rw [OverrideStack.advance]
  cases hlayered : t.layered? with
  | none =>
    rw [hlayered] at hfind
    rw [advance_of_layered?_eq_none hlayered, OverrideStack.advanceFrames_eq_none]
    · rfl
    · intro g hg
      rw [hfind] at hg
      cases hg
  | some pair =>
    obtain ⟨name, e⟩ := pair
    have hentry := entries_of_layered? hlayered
    rw [hlayered, Option.map_some] at hfind
    rw [advanceFrames_eq hdistinct hfind, Frame.next?]
    by_cases hnext : e.cursor + 1 < e.bodies.length
    · rw [advance_of_layered? hlayered hnext, put_toStack hentry]
      simp only [TableEntry.frame, List.getElem?_eq_getElem hnext, Option.map_some]
      rfl
    · rw [advance_of_exhausted hlayered hnext]
      simp only [TableEntry.frame, List.getElem?_eq_none (Nat.le_of_not_lt hnext), Option.map_none]

theorem perform_toStack (ht : t.Coherent) (call : StackCall β) :
    t.toStack.perform call = ((t.perform call).1, (t.perform call).2.toStack) := by
  cases call with
  | push name bodies =>
    obtain ⟨hmay, hpush⟩ := ht.push_toStack name bodies
    rw [OverrideStack.perform, hmay, hpush]
    rfl
  | pop name => exact congrArg (Prod.mk StackAnswer.done) (ht.pop_toStack name)
  | retreat name => exact congrArg (Prod.mk StackAnswer.done) (ht.retreat_toStack name)
  | advance =>
    have hadvance := ht.advance_toStack
    rw [OverrideStack.perform, hadvance, OverrideTable.perform]
    cases hfound : t.advance.1 with
    | some step => rfl
    | none =>
      have hsame : t.advance.2 = t := advance_eq_self hfound
      rw [hsame]
      rfl

/-- Calls on a table have the answers of the same calls on its stack, and keep the two alike. -/
theorem runCalls_toStack (ht : t.Coherent) (calls : List (StackCall β)) :
    (runCalls OverrideTable.perform t calls).2.Coherent ∧
      runCalls OverrideStack.perform t.toStack calls =
        ((runCalls OverrideTable.perform t calls).1,
          (runCalls OverrideTable.perform t calls).2.toStack) := by
  induction calls generalizing t with
  | nil => exact ⟨ht, rfl⟩
  | cons call rest ih =>
    obtain ⟨hcoherent, hrest⟩ := ih (ht.perform call)
    refine ⟨hcoherent, ?_⟩
    simp only [runCalls, ht.perform_toStack call, hrest]

end Coherent

/-! ## Consecutive calls of the parent -/

/-- The table behind a number of consecutive calls of the parent. -/
def advanced (t : OverrideTable β) : Nat → OverrideTable β
  | 0 => t
  | count + 1 => (t.advanced count).advance.2

/-- Consecutive calls of the parent go down an entry: as many of them find a body as there are
bodies behind the cursor, and they find these in their order. All further calls find nothing and
leave the table as it is. -/
structure Descends (t : OverrideTable β) (name : String) (e : TableEntry β) : Prop where
  found : ∀ k < e.bodies.length - 1 - e.cursor, ∃ body, e.bodies[e.cursor + 1 + k]? = some body ∧
    (t.advanced k).advance.1 = some (name, body)
  ended : ∀ k ≥ e.bodies.length - 1 - e.cursor, (t.advanced k).advance = (none, t.advanced k)

theorem layered?_put (h : t.layered? = some (name, e)) (cursor : Nat) :
    (t.put name { e with cursor := cursor }).layered? =
      some (name, { e with cursor := cursor }) := by
  obtain ⟨hfound, he⟩ := layered?_eq_some_iff.mp h
  have hlayered : ∀ other,
      ((t.put name { e with cursor := cursor }).entries other).any TableEntry.isLayered =
        (t.entries other).any TableEntry.isLayered := by
    intro other
    by_cases hother : other = name
    · subst hother
      rw [entries_put_self, he]
      rfl
    · rw [entries_put_of_ne hother]
  rw [layered?_eq_some_iff, active_put]
  simp only [hlayered]
  exact ⟨hfound, entries_put_self⟩

/-- Behind consecutive calls of the parent the cursor has moved by as many bodies, or to the last
one. -/
theorem layered?_advanced (h : t.layered? = some (name, e)) (hcursor : e.cursor < e.bodies.length)
    (count : Nat) : (t.advanced count).layered? =
      some (name, { e with cursor := min (e.cursor + count) (e.bodies.length - 1) }) := by
  induction count with
  | zero =>
    rw [Nat.add_zero, Nat.min_eq_left (by omega)]
    exact h
  | succ count ih =>
    rw [advanced]
    by_cases hnext : min (e.cursor + count) (e.bodies.length - 1) + 1 < e.bodies.length
    · have hmoved : min (e.cursor + count) (e.bodies.length - 1) + 1 =
          min (e.cursor + (count + 1)) (e.bodies.length - 1) := by omega
      rw [advance_of_layered? ih hnext, ← hmoved]
      exact layered?_put ih _
    · have hstays : min (e.cursor + count) (e.bodies.length - 1) =
          min (e.cursor + (count + 1)) (e.bodies.length - 1) := by omega
      rw [advance_of_exhausted ih hnext, ← hstays]
      exact ih

theorem Coherent.descends (ht : t.Coherent) (h : t.layered? = some (name, e)) :
    t.Descends name e := by
  have hcursor := (ht.inRange name e (entries_of_layered? h)).2
  constructor
  · intro k hk
    have hreached : min (e.cursor + k) (e.bodies.length - 1) = e.cursor + k := by omega
    have hlayered := layered?_advanced h hcursor k
    rw [hreached] at hlayered
    have hnext : e.cursor + k + 1 < e.bodies.length := by omega
    have hindex : e.cursor + 1 + k = e.cursor + k + 1 := by omega
    refine ⟨e.bodies[e.cursor + k + 1], ?_, ?_⟩
    · rw [hindex, List.getElem?_eq_getElem hnext]
    · rw [advance_of_layered? hlayered hnext]
  · intro k hk
    exact advance_of_exhausted (layered?_advanced h hcursor k) (by simp only; omega)

/-- **Calls of a stack of overridden blocks.** Behind any calls, in any order and with any names and
bodies, the list of active names and the map of their entries are in step, every entry has a body,
and its cursor points to one. The calls have had the answers of the stack of frames, and the table
is that stack. A call of the parent that finds a body is undone by going back in the name that it
gives. If no entry has more than one body, it finds nothing and changes nothing; otherwise
consecutive calls go down the rest of the innermost such entry. -/
theorem runCalls_inStep (calls : List (StackCall β)) :
    (behind calls).Coherent ∧
      runCalls OverrideStack.perform .empty calls =
        ((runCalls perform empty calls).1, (behind calls).toStack) ∧
      (∀ step, (behind calls).advance.1 = some step →
        (behind calls).advance.2.retreat step.1 = behind calls) ∧
      ((behind calls).layered? = none → (behind calls).advance = (none, behind calls)) ∧
      ∀ name e, (behind calls).layered? = some (name, e) → (behind calls).Descends name e := by
  obtain ⟨hcoherent, hanswers⟩ := Coherent.empty.runCalls_toStack calls
  exact ⟨hcoherent, hanswers, fun _ => retreat_advance, advance_of_layered?_eq_none,
    fun _ _ => hcoherent.descends⟩

/-- A wrapper with one body inside a block with three, inside another block; one call of the parent,
and calls for names that are not the innermost one. -/
def nestedCalls : List (StackCall Nat) :=
  [.push "Page" [(0, 1), (1, 2)], .push "Content" [(0, 3), (1, 4), (2, 5)], .push "If" [(0, 6)],
    .advance, .retreat "Page", .push "Content" [(0, 7)], .pop "Page", .pop "Page"]

theorem runCalls_inStep_nested :
    (behind nestedCalls).active = ["If", "Content"] ∧
      (behind nestedCalls).layered? = some ("Content", ⟨[(0, 3), (1, 4), (2, 5)], 1⟩) ∧
      (behind nestedCalls).advance.1 = some ("Content", 2, 5) ∧
      (behind nestedCalls).advance.2.retreat "Content" = behind nestedCalls ∧
      (behind nestedCalls).Descends "Content" ⟨[(0, 3), (1, 4), (2, 5)], 1⟩ := by
  obtain ⟨-, -, hback, -, hdescends⟩ := runCalls_inStep nestedCalls
  have hlayered : (behind nestedCalls).layered? =
      some ("Content", ⟨[(0, 3), (1, 4), (2, 5)], 1⟩) := rfl
  have hfound : (behind nestedCalls).advance.1 = some ("Content", 2, 5) := rfl
  exact ⟨rfl, hlayered, hfound, hback _ hfound, hdescends _ _ hlayered⟩

end OverrideTable

end LayeredTags
