import LayeredTags.Engine.Setup
import LayeredTags.Proofs.Engine.Outcome
import LayeredTags.Proofs.Store.Apart

/-!
# Engines over a disk

* `Engine.OnDisk`: the candidates of some templates are text files of a disk or missing from it, and
  the store keeps its artifacts apart from them.
* `Engine.OnDisk.respectsPaths`, `Engine.OnDisk.readsExisting`: what can be seen of the candidates.
* `Engine.OnDisk.keep`, `Engine.OnDisk.register`: the engine itself leaves the candidates alone.
* `Engine.OnDisk.changeDisk`: others write and delete candidates.
-/

namespace LayeredTags

theorem slash_notMem_cacheKey (identity : List Path) : '/' ∉ (cacheKey identity).toList :=
  fun h => absurd (mem_hexDigits_of_mem_cacheKey h) (by decide)

namespace Engine

open FileSystem

def disk (e : Engine Storage) : FileSystem :=
  e.cache.store.disk

/-- The sources are on the disk, the candidates of the templates are text files or missing in
directories that are there, and no artifact of the store stands in the place of one. -/
structure OnDisk (e : Engine Storage) (names : List String) : Prop where
  storehouse : e.resolver.storehouse = .disk
  keys : ∀ identity, '/' ∉ (e.cache.keyOf identity).toList
  tidy : ∀ p ∈ e.resolver.settings.candidatesOf names, e.disk.Tidy p
  apart : e.cache.store.Apart (e.resolver.settings.candidatesOf names)

def changeDisk (e : Engine Storage) (change : FileSystem → FileSystem) : Engine Storage :=
  { e with cache := { e.cache with store := { e.cache.store with disk := change e.disk } } }

variable {e e' : Engine Storage} {names : List String} {name : String} {a : Artifact}
  {definition : TagDefinition} {change : FileSystem → FileSystem} {p q : Path}

theorem view_of_disk (h : e.resolver.storehouse = .disk) :
    e.view = e.resolver.settings.view e.disk := by
  rw [view, Resolver.view, h]
  rfl

namespace OnDisk

theorem respectsPaths (h : e.OnDisk names) :
    e.view.RespectsPaths (e.resolver.settings.candidatesOf names) :=
  view_of_disk h.storehouse ▸ ThemeSettings.respectsPaths_view h.tidy

theorem readsExisting (h : e.OnDisk names) :
    e.view.ReadsExisting (e.resolver.settings.candidatesOf names) :=
  view_of_disk h.storehouse ▸ ThemeSettings.readsExisting_view h.tidy

/-! ## What the engine does -/

theorem of_spares (h : e.OnDisk names) (hresolver : e'.resolver = e.resolver)
    (hkeys : e'.cache.keyOf = e.cache.keyOf)
    (hspares : e.disk.Spares e'.disk (e.resolver.settings.candidatesOf names))
    (hapart : e'.cache.store.Apart (e.resolver.settings.candidatesOf names)) :
    e'.OnDisk names ∧ e'.view.AgreeOn e.view (e.resolver.settings.candidatesOf names) := by
  have hstorehouse : e'.resolver.storehouse = .disk := hresolver ▸ h.storehouse
  refine ⟨⟨hstorehouse, hkeys ▸ h.keys, ?_, ?_⟩, ?_⟩
  · rw [hresolver]
    exact hspares.tidy h.tidy
  · rw [hresolver]
    exact hapart
  · rw [view_of_disk hstorehouse, view_of_disk h.storehouse, hresolver]
    exact ThemeSettings.agreeOn_view h.tidy hspares

theorem keep (h : e.OnDisk names) : (e.keep name a).OnDisk names ∧
    (e.keep name a).view.AgreeOn e.view (e.resolver.settings.candidatesOf names) := by
  obtain ⟨hspares, hapart⟩ := h.apart.save (a := a) (h.keys (e.resolve name))
  exact h.of_spares rfl rfl hspares hapart

theorem register (h : e.OnDisk names) : (e.register definition).OnDisk names ∧
    (e.register definition).view.AgreeOn e.view (e.resolver.settings.candidatesOf names) := by
  obtain ⟨hspares, hapart⟩ := h.apart.clear
  exact h.of_spares rfl rfl hspares hapart

/-! ## What others do -/

section

variable (h : e.OnDisk names) (hp : p ∈ e.resolver.settings.candidatesOf names)
  (hreplaces : Replaces e.disk (change e.disk) (e.disk.destination p))
  (htext : (change e.disk).IsText (e.disk.destination p))

include h hp hreplaces htext

theorem changeDisk : (e.changeDisk change).OnDisk names where
  storehouse := h.storehouse
  keys := h.keys
  tidy q hq := by
    refine (h.tidy q hq).of_keeps hreplaces.keeps ?_
    by_cases hsame : e.disk.destination q = e.disk.destination p
    · exact hsame ▸ htext
    · exact (h.tidy q hq).isText.congr (hreplaces.get? _ hsame)
  apart := (h.apart.of_replaces hp hreplaces).1

/-- What is seen then: the candidate that was changed, and the others as they were. -/
theorem view_changeDisk (hq : q ∈ e.resolver.settings.candidatesOf names) :
    ((e.changeDisk change).view.read q = e.view.read q ∧
        (e.changeDisk change).view.modified? q = e.view.modified? q) ∨
      (e.changeDisk change).view.modified? q =
        ((change e.disk).source? (e.disk.destination p)).map (·.2) := by
  have hchanged := h.changeDisk hp hreplaces htext
  rw [view_of_disk h.storehouse, view_of_disk hchanged.storehouse]
  by_cases hsame : e.disk.destination q = e.disk.destination p
  · right
    rw [← hsame, ← hreplaces.keeps.destination]
    exact (hchanged.tidy q hq).modified?_eq
  · left
    refine ThemeSettings.view_congr hq hq (hchanged.tidy q hq) (h.tidy q hq) ?_
    have hdestination : (change e.disk).destination q = e.disk.destination q :=
      hreplaces.keeps.destination q
    show (change e.disk).source? ((change e.disk).destination q) = _
    rw [hdestination]
    exact source?_congr (hreplaces.get? _ hsame)

end

end OnDisk

end Engine

end LayeredTags
