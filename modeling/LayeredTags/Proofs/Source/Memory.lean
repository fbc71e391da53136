import LayeredTags.Source.Resolver

/-!
# Reading sources in memory

A source in memory is found under every path with the same components. A change stamps what it
writes and leaves the other sources as they were.

* `MemorySources.get?_congr`: only the components of a path count.
* `MemorySources.get?_add`, `get?_touch`, `get?_remove`: what is found behind a change.
* `MemorySources.layers`, `MemorySources.loadLayers_view`: the layers of a template.
-/

namespace LayeredTags

namespace Path

variable {p q r : Path}

theorem Same.symm (h : Same p q) : Same q p := Eq.symm h

theorem Same.trans (h : Same p q) (h' : Same q r) : Same p r := Eq.trans h h'

end Path

namespace MemorySources

variable {m : MemorySources} {p q path : Path} {text : String} {modified : Instant}

theorem get?_congr (h : p.Same q) : m.get? p = m.get? q := by
  have hsame : (fun s : StoredSource => decide (s.path.Same p)) =
      fun s => decide (s.path.Same q) := by
    funext s
    exact decide_eq_decide.mpr ⟨fun hs => hs.trans h, fun hs => hs.trans h.symm⟩
  rw [get?, get?, hsame]

theorem get?_remove :
    (m.remove path).get? q = if path.Same q then none else m.get? q := by
  rw [get?, get?, remove, List.find?_filter]
  split
  · rename_i hsame
    rw [List.find?_eq_none]
    intro s _
    have hiff : s.path.Same q → s.path.Same path := fun hs => hs.trans hsame.symm
    simpa using fun hne hs => hne (hiff hs)
  · rename_i hne
    congr 1
    funext s
    have hiff : s.path.Same q → ¬ s.path.Same path := fun hs hp => hne (hp.symm.trans hs)
    by_cases hs : s.path.Same q
    · simp [hs, hiff hs]
    · simp [hs]

theorem get?_add : (m.add path text modified).get? q =
    if path.Same q then some ⟨path, text, modified⟩ else m.get? q := by
  by_cases hsame : path.Same q
  · rw [if_pos hsame, get?, add, List.find?_cons_of_pos (by simpa using hsame)]
  · rw [if_neg hsame, get?, add, List.find?_cons_of_neg (by simpa using hsame), ← get?, get?_remove,
      if_neg hsame]

theorem path_same_of_get? {s : StoredSource} (h : m.get? q = some s) : s.path.Same q := by
  have hfound := List.find?_some h
  simpa using hfound

theorem get?_touch : (m.touch path modified).get? q =
    if path.Same q then (m.get? q).map fun s => { s with modified := modified }
    else m.get? q := by
  have hstays : ((fun s => decide (s.path.Same q)) ∘ fun s : StoredSource =>
      if s.path.Same path then { s with modified := modified } else s) =
      fun s => decide (s.path.Same q) := by
    funext s
    by_cases hs : s.path.Same path <;> simp [hs]
  rw [get?, touch, List.find?_map, hstays, ← get?]
  cases hfound : m.get? q with
  | none => simp
  | some s =>
    have hs := path_same_of_get? hfound
    by_cases hsame : path.Same q
    · simp [hsame, hs.trans hsame.symm]
    · have hne : ¬ s.path.Same path := fun h => hsame (h.symm.trans hs)
      simp [hsame, hne]

def layers (m : MemorySources) (identity : List Path) : List LayerSource :=
  identity.filterMap fun p => (m.get? p).map fun s => ⟨p, s.text⟩

theorem mem_layers {identity : List Path} {layer : LayerSource} :
    layer ∈ m.layers identity ↔
      layer.path ∈ identity ∧ ∃ s, m.get? layer.path = some s ∧ s.text = layer.text := by
  simp only [layers, List.mem_filterMap, Option.map_eq_some_iff]
  constructor
  · rintro ⟨p, hp, s, hs, rfl⟩
    exact ⟨hp, s, hs, rfl⟩
  · rintro ⟨hp, s, hs, htext⟩
    exact ⟨layer.path, hp, s, hs, htext ▸ rfl⟩

theorem layers_map_path (identity : List Path) :
    (m.layers identity).map (·.path) = identity.filter fun p => (m.get? p).isSome := by
  induction identity with
  | nil => rfl
  | cons p rest ih =>
    rw [layers] at ih ⊢
    cases hp : m.get? p with
    | none =>
      rw [List.filterMap_cons_none (by rw [hp]; rfl), List.filter_cons_of_neg (by simp [hp]), ih]
    | some s =>
      rw [List.filterMap_cons_some (by rw [hp]; rfl), List.filter_cons_of_pos (by simp [hp]),
        List.map_cons, ih]

theorem readLayers_view (identity : List Path) :
    m.view.readLayers identity = .ok (m.layers identity) := by
  induction identity with
  | nil => rfl
  | cons p rest ih =>
    rw [layers] at ih ⊢
    rw [SourceView.readLayers, ih, List.filterMap_cons]
    cases hp : m.get? p with
    | none => simp [view, hp, bind, Except.bind]
    | some s => simp [view, hp, bind, Except.bind]

theorem loadLayers_view {identity : List Path} (h : identity.any m.view.exists? = true)
    (name : String) : m.view.loadLayers name identity = .ok (m.layers identity) := by
  rw [SourceView.loadLayers, readLayers_view]
  cases hlayers : m.layers identity with
  | cons layer rest => rfl
  | nil =>
    obtain ⟨p, hp, hexists⟩ := List.any_eq_true.mp h
    have hfound : ((m.get? p).map (·.modified)).isSome = true := hexists
    rw [Option.isSome_map] at hfound
    have hmem : p ∈ (m.layers identity).map (·.path) := by
      rw [layers_map_path]
      exact List.mem_filter.mpr ⟨hp, hfound⟩
    rw [hlayers] at hmem
    cases hmem

end MemorySources

end LayeredTags
