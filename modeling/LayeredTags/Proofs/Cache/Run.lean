import LayeredTags.Proofs.Cache.Edit
import LayeredTags.Proofs.Store.Entries
import Mathlib.Data.List.Induction

/-!
# Runs of a cache over a store that may fail

Artifacts of several identities may stand under one key, one in place of the other, and a store that
fails leaves an older one behind. Still nothing is handed out but the last artifact that was stored
under the key, and only where it was compiled for the same paths and no source has changed since.

* `CacheManager.obtainM`: a call whose compile function has effects; `CacheManager.noting` counts
  its runs.
* `CacheManager.Accords`: how the result of a call depends on the compile function and the lookup.
* `CacheSession`, `CacheSession.run`: calls, changes of files and of the store's readiness.
* `CacheSession.persistedBy`: the artifacts that the calls of a run have compiled and stored.
* `CacheSession.Keeps`: what a step does to the entries of the store.
* `CacheSession.entries_run`: what the store has under a key after a run.
* `CacheSession.answers_run`: what calls hand out after a run.
-/

namespace LayeredTags

namespace CacheManager

variable {σ ε ρ : Type} [ArtifactStore σ] {m : CacheManager σ} {modified? : Path → Option Instant}
  {now : Instant} {identity : List Path} {a : Artifact}

/-! ## One call -/

/-- `obtain` for a compile function with effects. -/
def obtainM {M : Type → Type} [Monad M] (m : CacheManager σ) (modified? : Path → Option Instant)
    (now : Instant) (identity : List Path) (compile : Instant → M (Except ε (Artifact × ρ))) :
    M (Except ε (Artifact × Option ρ) × CacheManager σ) :=
  match m.lookup modified? identity with
  | some a => pure (.ok (a, none), m)
  | none => do
    match ← compile (recordedTime modified? now identity) with
    | .error e => pure (.error e, m)
    | .ok (a, report) =>
      let stored := stamp modified? identity a
      pure (.ok (stored, some report),
        { m with store := (ArtifactStore.save m.store (m.keyOf identity) stored).2 })

/-- A compile function that notes the time that it is given whenever it runs. -/
def noting {α : Type} (compile : Instant → α) (t : Instant) : StateM (List Instant) α := do
  modify (· ++ [t])
  return compile t

/-- The compile function runs once if nothing usable is found, and not at all otherwise. -/
theorem obtainM_noting (compile : Instant → Except ε (Artifact × ρ)) :
    (m.obtainM modified? now identity (noting compile)).run [] =
      (m.obtain modified? now identity compile,
        if m.lookup modified? identity = none then [recordedTime modified? now identity]
        else []) := by
  rw [obtainM, obtain]
  cases m.lookup modified? identity with
  | some a => rfl
  | none =>
    simp only [noting]
    cases compile (recordedTime modified? now identity) with
    | error e => rfl
    | ok result => rfl

/-- How a call goes: the compile function runs exactly when nothing usable is found, and then once;
a failure is that of the compile function and leaves the store as it was; failures of the store do
not show. -/
structure Accords (m : CacheManager σ) (modified? : Path → Option Instant) (now : Instant)
    (identity : List Path) (compile : Instant → Except ε (Artifact × ρ))
    (r : Except ε (Artifact × Option ρ) × CacheManager σ) : Prop where
  runs : (m.obtainM modified? now identity (noting compile)).run [] =
    (r, if m.lookup modified? identity = none then [recordedTime modified? now identity] else [])
  cached_iff : ∀ a, r.1 = .ok (a, none) ↔ m.lookup modified? identity = some a
  compiled_iff : ∀ a report, r.1 = .ok (a, some report) ↔ m.lookup modified? identity = none ∧
    ∃ b, compile (recordedTime modified? now identity) = .ok (b, report) ∧
      a = stamp modified? identity b
  error_iff : ∀ e, r.1 = .error e ↔ m.lookup modified? identity = none ∧
    compile (recordedTime modified? now identity) = .error e
  unchanged : ∀ e, r.1 = .error e → r.2 = m

theorem accords_obtain (compile : Instant → Except ε (Artifact × ρ)) :
    m.Accords modified? now identity compile (m.obtain modified? now identity compile) := by
  have hcached : ∀ a, (m.obtain modified? now identity compile).1 = .ok (a, none) ↔
      m.lookup modified? identity = some a := fun _ => obtain_eq_cached_iff
  cases hlookup : m.lookup modified? identity with
  | some b =>
    have hr : m.obtain modified? now identity compile = (.ok (b, none), m) :=
      obtain_of_lookup_eq_some hlookup
    exact ⟨obtainM_noting compile, hcached, by simp [hr, hlookup], by simp [hr, hlookup],
      by simp [hr]⟩
  | none =>
    cases hcompile : compile (recordedTime modified? now identity) with
    | error e =>
      have hr := obtain_of_error hlookup hcompile
      exact ⟨obtainM_noting compile, hcached, by simp [hr, hcompile],
        by simp [hr, hlookup, hcompile], by simp [hr]⟩
    | ok result =>
      obtain ⟨b, report⟩ := result
      have hr := obtain_of_ok hlookup hcompile
      refine ⟨obtainM_noting compile, hcached, fun a other => ?_, by simp [hr, hcompile],
        by simp [hr]⟩
      rw [hr, hlookup, hcompile]
      simp only [Except.ok.injEq, Prod.mk.injEq, Option.some.injEq, true_and]
      constructor
      · rintro ⟨rfl, rfl⟩
        exact ⟨b, ⟨rfl, rfl⟩, rfl⟩
      · rintro ⟨_, ⟨rfl, rfl⟩, rfl⟩
        exact ⟨rfl, rfl⟩

theorem keyOf_obtain (m : CacheManager σ) (modified? : Path → Option Instant) (now : Instant)
    (identity : List Path) (compile : Instant → Except ε (Artifact × ρ)) :
    (m.obtain modified? now identity compile).2.keyOf = m.keyOf := by
  rw [obtain]
  split
  · rfl
  · split <;> rfl

end CacheManager

/-! ## Runs -/

/-- A manager and the times of the files that it sees. -/
structure CacheSession (σ : Type) where
  manager : CacheManager σ
  modified? : Path → Option Instant

namespace CacheSession

/-- What happens to a cache. -/
inductive Step (σ ε ρ : Type) [ArtifactStore σ] [EntryStore σ] where
  | obtain (now : Instant) (identity : List Path) (compile : Instant → Except ε (Artifact × ρ))
  | obtainCode (now : Instant) (identity : List Path) (compile : Except ε String)
  | lookup (identity : List Path)
  | invalidate (identity : List Path)
  | clear
  /-- files are made, changed or removed -/
  | restamp (modified? : Path → Option Instant)
  /-- the store comes to fail at other operations, and its entries stay -/
  | unsettle (change : { f : σ → σ // ∀ s, EntryStore.entries (f s) = EntryStore.entries s })

variable {σ ε ρ : Type} [ArtifactStore σ] [EntryStore σ]

def after (w : CacheSession σ) : Step σ ε ρ → CacheSession σ
  | .obtain now identity compile =>
    { w with manager := (w.manager.obtain w.modified? now identity compile).2 }
  | .obtainCode now identity compile =>
    { w with manager := (w.manager.obtainCode w.modified? now identity compile).2 }
  | .lookup _ => w
  | .invalidate identity => { w with manager := (w.manager.invalidate identity).2 }
  | .clear => { w with manager := w.manager.clear.2 }
  | .restamp modified? => { w with modified? := modified? }
  | .unsettle change =>
    { w with manager := { w.manager with store := change.val w.manager.store } }

def run (w : CacheSession σ) (steps : List (Step σ ε ρ)) : CacheSession σ :=
  steps.foldl after w

/-- The artifact that a call has compiled for an identity, if the store has taken it. -/
def taken {ρ : Type} (m : CacheManager σ) (identity : List Path) :
    Except ε (Artifact × Option ρ) → Option (List Path × Artifact)
  | .ok (a, some _) =>
    if (ArtifactStore.save m.store (m.keyOf identity) a).1 = .ok () then some (identity, a)
    else none
  | .ok (_, none) | .error _ => none

/-- What a step has compiled and stored, and for which identity. -/
def persisted? (w : CacheSession σ) : Step σ ε ρ → Option (List Path × Artifact)
  | .obtain now identity compile =>
    taken w.manager identity (w.manager.obtain w.modified? now identity compile).1
  | .obtainCode now identity compile =>
    taken w.manager identity (w.manager.obtainCode w.modified? now identity compile).1
  | .lookup _ | .invalidate _ | .clear | .restamp _ | .unsettle _ => none

/-- What the steps of a run have compiled and stored, in order. -/
def persistedBy (w : CacheSession σ) : List (Step σ ε ρ) → List (List Path × Artifact)
  | [] => []
  | step :: rest => (w.persisted? step).toList ++ (w.after step).persistedBy rest

/-- The artifact is the last one that a run has compiled and stored under a key, and was compiled
for the given identity. -/
def LastPersisted (w : CacheSession σ) (steps : List (Step σ ε ρ)) (key : String)
    (identity : List Path) (a : Artifact) : Prop :=
  ∃ earlier later, w.persistedBy steps = earlier ++ (identity, a) :: later ∧
    w.manager.keyOf identity = key ∧ ∀ p ∈ later, w.manager.keyOf p.1 ≠ key

variable {w : CacheSession σ} {steps : List (Step σ ε ρ)} {step : Step σ ε ρ}

theorem run_concat : w.run (steps ++ [step]) = (w.run steps).after step :=
  List.foldl_append ..

theorem persistedBy_concat (w : CacheSession σ) (steps : List (Step σ ε ρ)) (step : Step σ ε ρ) :
    w.persistedBy (steps ++ [step]) =
      w.persistedBy steps ++ ((w.run steps).persisted? step).toList := by
  induction steps generalizing w with
  | nil => simp [persistedBy, run]
  | cons first rest ih =>
    rw [List.cons_append, persistedBy, ih, persistedBy, List.append_assoc]
    rfl

/-! ## Entries -/

/-- How the entries change: an artifact that is persisted for an identity stands under its key
behind the change, and otherwise no entry has come in. -/
def Keeps (m changed : CacheManager σ) : Option (List Path × Artifact) → Prop
  | none => ∀ key a, EntryStore.entries changed.store key = some a →
      EntryStore.entries m.store key = some a
  | some (identity, a) => a.identity = identity ∧ EntryStore.entries changed.store =
      Function.update (EntryStore.entries m.store) (m.keyOf identity) (some a)

theorem keeps_obtain (m : CacheManager σ) (modified? : Path → Option Instant) (now : Instant)
    (identity : List Path) (compile : Instant → Except ε (Artifact × ρ)) :
    Keeps m (m.obtain modified? now identity compile).2
      (taken m identity (m.obtain modified? now identity compile).1) := by
  cases hlookup : m.lookup modified? identity with
  | some b =>
    rw [CacheManager.obtain_of_lookup_eq_some hlookup]
    exact fun _ _ ha => ha
  | none =>
    cases hcompile : compile (CacheManager.recordedTime modified? now identity) with
    | error e =>
      rw [CacheManager.obtain_of_error hlookup hcompile]
      exact fun _ _ ha => ha
    | ok result =>
      obtain ⟨b, report⟩ := result
      rw [CacheManager.obtain_of_ok hlookup hcompile, taken]
      rcases EntryStore.outcome_save m.store (m.keyOf identity)
        (CacheManager.stamp modified? identity b) with ⟨hok, hentries⟩ | ⟨⟨e, herror⟩, hentries⟩
      · rw [if_pos hok]
        exact ⟨rfl, hentries⟩
      · rw [if_neg (by rw [herror]; exact nofun)]
        exact fun key a ha => hentries ▸ ha

theorem keeps_of_outcome {m changed : CacheManager σ} {result : Except StoreError Unit}
    {wanted : Entries}
    (h : Outcome result (EntryStore.entries m.store) wanted (EntryStore.entries changed.store))
    (hwanted : ∀ key a, wanted key = some a → EntryStore.entries m.store key = some a) :
    Keeps m changed none := by
  intro key a ha
  rcases h with ⟨-, hafter⟩ | ⟨-, hafter⟩
  · exact hwanted key a (hafter ▸ ha)
  · exact hafter ▸ ha

theorem keeps_after (w : CacheSession σ) (step : Step σ ε ρ) :
    Keeps w.manager (w.after step).manager (w.persisted? step) := by
  cases step with
  | obtain now identity compile => exact keeps_obtain ..
  | obtainCode now identity compile => exact keeps_obtain ..
  | lookup identity => exact fun _ _ ha => ha
  | invalidate identity =>
    refine keeps_of_outcome (EntryStore.outcome_remove _ _) fun key a ha => ?_
    rw [Function.update_apply] at ha
    split at ha
    · cases ha
    · exact ha
  | clear => exact keeps_of_outcome (EntryStore.outcome_clear _) nofun
  | restamp modified? => exact fun _ _ ha => ha
  | unsettle change => exact fun key a ha => change.property w.manager.store ▸ ha

theorem keyOf_after (w : CacheSession σ) (step : Step σ ε ρ) :
    (w.after step).manager.keyOf = w.manager.keyOf := by
  cases step with
  | obtain now identity compile => exact CacheManager.keyOf_obtain ..
  | obtainCode now identity compile => exact CacheManager.keyOf_obtain ..
  | lookup | invalidate | clear | restamp | unsettle => rfl

theorem keyOf_run (w : CacheSession σ) (steps : List (Step σ ε ρ)) :
    (w.run steps).manager.keyOf = w.manager.keyOf := by
  induction steps using List.reverseRecOn with
  | nil => rfl
  | append_singleton steps step ih => rw [run_concat, keyOf_after, ih]

/-- What the store has under a key after a run is the last artifact that was compiled and stored
under it in the run, and it carries the identity that it was compiled for. -/
theorem entries_run (hempty : ∀ key, EntryStore.entries w.manager.store key = none) {key : String}
    {a : Artifact} (h : EntryStore.entries (w.run steps).manager.store key = some a) :
    w.LastPersisted steps key a.identity a := by
  induction steps using List.reverseRecOn generalizing a with
  | nil => exact absurd (h.symm.trans (hempty key)) nofun
  | append_singleton steps step ih =>
    have hkeeps := (w.run steps).keeps_after step
    have hlog := w.persistedBy_concat steps step
    rw [run_concat] at h
    cases hpersisted : (w.run steps).persisted? step with
    | none =>
      rw [hpersisted] at hkeeps hlog
      obtain ⟨earlier, later, hformer, hrest⟩ := ih (hkeeps key a h)
      exact ⟨earlier, later, hlog.trans (by simp [hformer]), hrest⟩
    | some p =>
      obtain ⟨identity, b⟩ := p
      rw [hpersisted] at hkeeps hlog
      obtain ⟨rfl, hentries⟩ := hkeeps
      rw [hentries, keyOf_run, Function.update_apply] at h
      split at h
      · rename_i hkey
        obtain rfl := Option.some.inj h
        exact ⟨_, [], hlog, hkey.symm, nofun⟩
      · rename_i hkey
        obtain ⟨earlier, later, hformer, hsame, hlater⟩ := ih h
        refine ⟨earlier, later ++ [(b.identity, b)], hlog.trans (by simp [hformer]), hsame, ?_⟩
        intro p hp
        rcases List.mem_append.mp hp with hp | hp
        · exact hlater p hp
        · obtain rfl := List.mem_singleton.mp hp
          exact fun heq => hkey heq.symm

/-! ## Answers -/

/-- **What a cache hands out.** Any operation of the store may have failed in a run that started
with an empty store, and any identities may have the same key. An artifact that is handed out
without compiling was the last one that was compiled and stored under its key in the run; it was
compiled for the same paths, the sources that existed are those that exist now, and none has changed
since. Calls run the compile function exactly when there is no such artifact, and then once; its
failures are the only ones that they pass on, and they leave the store as it was. -/
theorem answers_run (hempty : ∀ key, EntryStore.entries w.manager.store key = none)
    (steps : List (Step σ ε ρ)) (identity : List Path) :
    (∀ a, (w.run steps).manager.lookup (w.run steps).modified? identity = some a →
      (∃ asked, w.LastPersisted steps (w.manager.keyOf identity) asked a ∧
        Path.SameList asked identity) ∧
      Path.SameList a.existing (CacheManager.existing (w.run steps).modified? identity) ∧
      ∀ p ∈ identity, ∀ t, (w.run steps).modified? p = some t → t ≤ a.recorded) ∧
    (∀ (now : Instant) (compile : Instant → Except ε (Artifact × ρ)),
      (w.run steps).manager.Accords (w.run steps).modified? now identity compile
        ((w.run steps).manager.obtain (w.run steps).modified? now identity compile)) ∧
    ∀ (now : Instant) (compile : Except ε String),
      (w.run steps).manager.Accords (w.run steps).modified? now identity
        (fun recorded => compile.map fun code => (Artifact.new identity code recorded, ()))
        ((w.run steps).manager.obtainCode (w.run steps).modified? now identity compile) := by
  refine ⟨fun a ha => ?_, fun now compile => CacheManager.accords_obtain compile,
    fun now compile => CacheManager.accords_obtain _⟩
  obtain ⟨hload, husable⟩ := CacheManager.lookup_eq_some_iff.mp ha
  obtain ⟨hidentity, hexisting, hfresh⟩ := CacheManager.isUsable_iff.mp husable
  refine ⟨?_, hexisting, hfresh⟩
  rw [keyOf_run] at hload
  have hentry : EntryStore.entries (w.run steps).manager.store (w.manager.keyOf identity) =
      some a := by
    rcases EntryStore.load_cases (w.run steps).manager.store (w.manager.keyOf identity) with
      hok | ⟨e, herror⟩
    · exact Except.ok.inj (hok.symm.trans hload)
    · exact absurd (herror.symm.trans hload) nofun
  exact ⟨a.identity, entries_run hempty hentry, hidentity⟩

def refuse (refused : List StoreOperation) : Step RefusingStore TemplateError Unit :=
  .unsettle ⟨fun s => { s with refused := refused }, fun _ => rfl⟩

/-- An empty store, one key for all identities, and two layers that are old. -/
def crowded : CacheSession RefusingStore :=
  ⟨⟨⟨[], .empty⟩, fun _ => "key"⟩, CacheManager.twoTimes ⟨1⟩ ⟨1⟩⟩

/-- Two identities are compiled, one after the other. A layer of the second is changed while the
store cannot be written, and put back. -/
def failedUpdate : List (Step RefusingStore TemplateError Unit) :=
  [.obtain ⟨2⟩ [⟨"base/other.tpl"⟩] (CacheManager.yields "other"),
    .obtain ⟨2⟩ CacheManager.twoLayers (CacheManager.yields "one"),
    .restamp (CacheManager.twoTimes ⟨1⟩ ⟨5⟩), refuse [.save],
    .obtain ⟨6⟩ CacheManager.twoLayers (CacheManager.yields "two"),
    .restamp (CacheManager.twoTimes ⟨1⟩ ⟨1⟩), refuse [.load],
    .obtain ⟨7⟩ [⟨"base/other.tpl"⟩] (fun _ => .error (.noCandidate "other")), refuse []]

/-- The failed write has left the older artifact behind. It is current again, and it is the last one
that was stored. -/
theorem answers_run_failedUpdate :
    (∀ key, EntryStore.entries crowded.manager.store key = none) ∧
    ∃ a, (crowded.run failedUpdate).manager.lookup (crowded.run failedUpdate).modified?
        CacheManager.twoLayers = some a ∧ a.code = "one" ∧
      ∃ asked, crowded.LastPersisted failedUpdate "key" asked a ∧
        Path.SameList asked CacheManager.twoLayers := by
  have hempty : ∀ key, EntryStore.entries crowded.manager.store key = none := fun _ => rfl
  have hlookup : (crowded.run failedUpdate).manager.lookup (crowded.run failedUpdate).modified?
      CacheManager.twoLayers =
        some ⟨CacheManager.twoLayers, "one", ⟨2⟩, CacheManager.twoLayers, []⟩ := rfl
  exact ⟨hempty, _, hlookup, rfl,
    ((answers_run hempty failedUpdate CacheManager.twoLayers).1 _ hlookup).1⟩

end CacheSession

end LayeredTags
