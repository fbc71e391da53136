import LayeredTags.Proofs.FileSystem
import LayeredTags.Source.Resolver
import Mathlib.Data.List.Forall2
import Mathlib.Data.List.ReduceOption

/-!
# What two views show of some paths

* `ThemeSettings.candidatesOf`: the candidates of several templates.
* `SourceView.texts`: the texts of the existing sources among some paths.
* `SourceView.AgreeOn`, `SourceView.Evolves`: two views show the same of some paths, or the second
  one shows later edits.
* `SourceView.RespectsPaths`, `SourceView.ReadsExisting`: only the components of a path count, and
  exactly what exists is read.
-/

namespace LayeredTags

def ThemeSettings.candidatesOf (t : ThemeSettings) (names : List String) : List Path :=
  names.flatMap t.candidates

theorem ThemeSettings.candidates_subset {t : ThemeSettings} {names : List String} {name : String}
    (h : name ∈ names) : t.candidates name ⊆ t.candidatesOf names :=
  fun _ hp => List.mem_flatMap_of_mem h hp

theorem forall₂_of_map_eq {α β γ : Type} {f : α → γ} {g : β → γ} {R : α → β → Prop} {as : List α}
    {bs : List β} (h : as.map f = bs.map g) (hR : ∀ a ∈ as, ∀ b ∈ bs, f a = g b → R a b) :
    List.Forall₂ R as bs := by
  induction as generalizing bs with
  | nil =>
    cases bs with
    | nil => exact .nil
    | cons b bs => cases h
  | cons a as ih =>
    cases bs with
    | nil => cases h
    | cons b bs =>
      obtain ⟨hab, hrest⟩ := List.cons.inj h
      exact .cons (hR a (.head _) b (.head _) hab)
        (ih hrest fun x hx y hy => hR x (.tail _ hx) y (.tail _ hy))

namespace SourceView

/-- The texts of the existing ones of a list of sources, in order. -/
def texts (v : SourceView) (paths : List Path) : Except SourceError (List String) :=
  (v.readLayers paths).map (·.map (·.text))

/-- The views show the same of the paths. -/
def AgreeOn (v w : SourceView) (paths : List Path) : Prop :=
  ∀ p ∈ paths, v.read p = w.read p ∧ v.modified? p = w.modified? p

/-- Paths with the same components are one source. -/
def RespectsPaths (v : SourceView) (paths : List Path) : Prop :=
  ∀ p ∈ paths, ∀ q ∈ paths, p.Same q → v.read p = v.read q ∧ v.modified? p = v.modified? q

/-- There is nothing to read at a path exactly if it does not exist. -/
def ReadsExisting (v : SourceView) (paths : List Path) : Prop :=
  ∀ p ∈ paths, v.read p = .ok none ↔ v.modified? p = none

/-- From one view to the next every path stays as it is, goes away or is stamped with a time behind
the clock. -/
def Evolves (v w : SourceView) (paths : List Path) (clock time : Instant) : Prop :=
  ∀ p ∈ paths, (w.read p = v.read p ∧ w.modified? p = v.modified? p) ∨
    w.modified? p = none ∨ clock < time ∧ w.modified? p = some time

variable {v w : SourceView} {paths others : List Path} {ts : List String}

theorem texts_cons (v : SourceView) (p : Path) (rest : List Path) :
    v.texts (p :: rest) = v.read p >>= fun text? => (v.texts rest).map (text?.toList ++ ·) := by
  unfold texts
  rw [readLayers]
  cases v.read p with
  | error err => rfl
  | ok text? =>
    cases v.readLayers rest with
    | error err => rfl
    | ok layers => cases text? <;> rfl

theorem texts_eq_ok_iff : v.texts paths = .ok ts ↔
    ∃ found, List.Forall₂ (fun p text? => v.read p = .ok text?) paths found ∧
      found.reduceOption = ts := by
  induction paths generalizing ts with
  | nil => simp [texts, readLayers, Except.map, eq_comm]
  | cons p rest ih =>
    rw [texts_cons]
    constructor
    · intro h
      obtain ⟨text?, hread, h⟩ := exists_of_bind_eq_ok h
      cases hrest : v.texts rest with
      | error err => rw [hrest] at h; cases h
      | ok ts' =>
        obtain ⟨found, hfound, rfl⟩ := ih.mp hrest
        rw [hrest] at h
        obtain rfl := Except.ok.inj h
        refine ⟨text? :: found, .cons hread hfound, ?_⟩
        cases text? <;> rfl
    · rintro ⟨found, hfound, rfl⟩
      cases hfound with
      | cons hread hrest =>
        rename_i text? found
        rw [hread, ih.mpr ⟨found, hrest, rfl⟩]
        cases text? <;> rfl

theorem texts_eq_ok_of_forall₂ (h : v.texts paths = .ok ts)
    (hsame : List.Forall₂ (fun p q => w.read q = v.read p) paths others) :
    w.texts others = .ok ts := by
  obtain ⟨found, hfound, rfl⟩ := texts_eq_ok_iff.mp h
  refine texts_eq_ok_iff.mpr ⟨found, ?_, rfl⟩
  clear h
  induction hfound generalizing others with
  | nil =>
    cases hsame
    exact .nil
  | cons hp _ ih =>
    cases hsame with
    | cons hq hrest => exact .cons (hq.trans hp) (ih hrest)

theorem AgreeOn.refl (v : SourceView) (paths : List Path) : v.AgreeOn v paths :=
  fun _ _ => ⟨rfl, rfl⟩

theorem AgreeOn.symm (h : v.AgreeOn w paths) : w.AgreeOn v paths :=
  fun p hp => ⟨(h p hp).1.symm, (h p hp).2.symm⟩

theorem AgreeOn.trans {u : SourceView} (h : u.AgreeOn v paths) (h' : v.AgreeOn w paths) :
    u.AgreeOn w paths :=
  fun p hp => ⟨(h p hp).1.trans (h' p hp).1, (h p hp).2.trans (h' p hp).2⟩

theorem AgreeOn.mono (h : v.AgreeOn w paths) (hsub : others ⊆ paths) : v.AgreeOn w others :=
  fun p hp => h p (hsub hp)

theorem RespectsPaths.of_agreeOn (h : w.RespectsPaths paths) (hagree : v.AgreeOn w paths) :
    v.RespectsPaths paths := by
  intro p hp q hq hsame
  obtain ⟨hread, hmodified⟩ := h p hp q hq hsame
  exact ⟨(hagree p hp).1.trans (hread.trans (hagree q hq).1.symm),
    (hagree p hp).2.trans (hmodified.trans (hagree q hq).2.symm)⟩

theorem ReadsExisting.of_agreeOn (h : w.ReadsExisting paths) (hagree : v.AgreeOn w paths) :
    v.ReadsExisting paths := by
  intro p hp
  rw [(hagree p hp).1, (hagree p hp).2]
  exact h p hp

theorem AgreeOn.evolves (hagree : v.AgreeOn w paths) (clock time : Instant) :
    w.Evolves v paths clock time :=
  fun p hp => .inl (hagree p hp)

theorem RespectsPaths.texts_eq_ok {candidates : List Path} (h : v.RespectsPaths paths)
    (hcandidates : candidates ⊆ paths) (hothers : others ⊆ paths)
    (hsame : Path.SameList candidates others) (htexts : v.texts candidates = .ok ts) :
    v.texts others = .ok ts := by
  refine texts_eq_ok_of_forall₂ htexts (forall₂_of_map_eq hsame fun p hp q hq hpq => ?_)
  exact (h p (hcandidates hp) q (hothers hq) hpq).1.symm

theorem AgreeOn.readLayers_eq (hagree : v.AgreeOn w paths) :
    v.readLayers paths = w.readLayers paths := by
  induction paths with
  | nil => rfl
  | cons p rest ih =>
    rw [readLayers, readLayers, (hagree p (.head _)).1, ih fun q hq => hagree q (.tail _ hq)]

theorem AgreeOn.any_exists? (hagree : v.AgreeOn w paths) :
    paths.any v.exists? = paths.any w.exists? := by
  rw [Bool.eq_iff_iff, List.any_eq_true, List.any_eq_true]
  refine exists_congr fun p => and_congr_right fun hp => ?_
  rw [exists?, exists?, (hagree p hp).2]

end SourceView

end LayeredTags
