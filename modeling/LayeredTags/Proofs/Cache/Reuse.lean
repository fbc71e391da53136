import LayeredTags.Proofs.Cache.Run
import LayeredTags.Proofs.Store.Agreement

/-!
# Artifacts are used again

What a call has compiled and stored is handed out by every later call for the same paths, as long as
the times of these paths stay as they are and nobody else writes, removes or clears its key. The
other artifacts of the store, and the other files, may change in any way.

* `MapStore`: a store whose artifacts can always be loaded.
* `CacheSession.Event`: what happens to a cache, also by calls of its store from elsewhere.
* `CacheSession.Touches`, `CacheSession.Spares`: the events that write, remove or clear a key, and
  those that leave the artifact of an identity alone.
* `CacheSession.Offers`: the invariant, an artifact that the next call hands out.
* `CacheSession.offers_happen`, `offers_happenAll`: what an event and a row of events keep.
* `CacheSession.obtain_again`: the calls behind a call that has compiled.
-/

namespace LayeredTags

/-- A store that is a map from keys to artifacts: what is under a key can be loaded. Operations that
change it may still fail. -/
class MapStore (σ : Type) [ArtifactStore σ] extends EntryStore σ where
  load_eq : ∀ (s : σ) (key : String), ArtifactStore.load s key = .ok (entries s key)

instance : MapStore MemoryStore where
  load_eq _ _ := rfl

theorem Outcome.eq_of_wanted {result : Except StoreError Unit} {before wanted after : Entries}
    {key : String} (h : Outcome result before wanted after) (hwanted : wanted key = before key) :
    after key = before key := by
  rcases h with ⟨-, rfl⟩ | ⟨-, rfl⟩
  · exact hwanted
  · rfl

namespace CacheManager

variable {modified? other? : Path → Option Instant} {identity : List Path} {a : Artifact}

theorem isUsable_congr (h : ∀ p ∈ identity, modified? p = other? p) :
    isUsable modified? identity a = isUsable other? identity a := by
  have hexisting : existing modified? identity = existing other? identity :=
    List.filter_congr fun p hp => by rw [h p hp]
  have htimes : times modified? identity = times other? identity :=
    List.filterMap_congr h
  rw [isUsable, isUsable, hexisting, htimes]

theorem isUsable_stamp {now : Instant} (h : a.recorded = recordedTime modified? now identity) :
    isUsable modified? identity (stamp modified? identity a) = true := by
  rw [isUsable_iff]
  refine ⟨.refl _, .refl _, fun p hp t ht => ?_⟩
  show t ≤ a.recorded
  rw [h]
  exact le_recordedTime hp ht

end CacheManager

namespace CacheSession

variable {σ ε ρ : Type} [ArtifactStore σ]

/-- What happens to a cache: a step of its own, or a call of its store from elsewhere. -/
inductive Event (σ ε ρ : Type) [ArtifactStore σ] [EntryStore σ] where
  | own (step : Step σ ε ρ)
  | foreign (call : StoreCall)

section events

variable [EntryStore σ]

def happen (w : CacheSession σ) : Event σ ε ρ → CacheSession σ
  | .own step => w.after step
  | .foreign call =>
    { w with manager := { w.manager with store := (call.perform w.manager.store).2 } }

def happenAll (w : CacheSession σ) (events : List (Event σ ε ρ)) : CacheSession σ :=
  events.foldl happen w

/-- A call has compiled an artifact, which it then writes. -/
def HasCompiled (result : Except ε (Artifact × Option ρ)) : Prop :=
  ∃ a report, result = .ok (a, some report)

def Touches (w : CacheSession σ) (key : String) : Event σ ε ρ → Prop
  | .own (.obtain now identity compile) => w.manager.keyOf identity = key ∧
    HasCompiled (w.manager.obtain w.modified? now identity compile).1
  | .own (.obtainCode now identity compile) => w.manager.keyOf identity = key ∧
    HasCompiled (w.manager.obtainCode w.modified? now identity compile).1
  | .own (.invalidate identity) => w.manager.keyOf identity = key
  | .own .clear => True
  | .own (.lookup _) | .own (.restamp _) | .own (.unsettle _) => False
  | .foreign call => call.Drops key

/-- The event is a call for an identity. -/
def Event.IsCallFor (identity : List Path) : Event σ ε ρ → Prop
  | own (.obtain _ asked _) | own (.obtainCode _ asked _) => asked = identity
  | own (.lookup _) | own (.invalidate _) | own .clear | own (.restamp _) | own (.unsettle _)
  | foreign _ => False

/-- The event does not touch the key of an identity, unless it is a call for that identity, and
leaves the times of its paths as they are. -/
structure Spares (w : CacheSession σ) (identity : List Path) (event : Event σ ε ρ) : Prop where
  key : ¬ event.IsCallFor identity → ¬ w.Touches (w.manager.keyOf identity) event
  times : ∀ p ∈ identity, (w.happen event).modified? p = w.modified? p

def SparesAll (w : CacheSession σ) (identity : List Path) : List (Event σ ε ρ) → Prop
  | [] => True
  | event :: rest => w.Spares identity event ∧ (w.happen event).SparesAll identity rest

theorem keyOf_happen (w : CacheSession σ) (event : Event σ ε ρ) :
    (w.happen event).manager.keyOf = w.manager.keyOf := by
  cases event with
  | own step => exact w.keyOf_after step
  | foreign call => rfl

/-! ## Keys that are not touched -/

theorem entries_obtain_of_not {m : CacheManager σ} {modified? : Path → Option Instant}
    {now : Instant} {identity : List Path} {compile : Instant → Except ε (Artifact × ρ)}
    {key : String} (h : ¬ (m.keyOf identity = key ∧
      HasCompiled (m.obtain modified? now identity compile).1)) :
    EntryStore.entries (m.obtain modified? now identity compile).2.store key =
      EntryStore.entries m.store key := by
  cases hlookup : m.lookup modified? identity with
  | some b => rw [CacheManager.obtain_of_lookup_eq_some hlookup]
  | none =>
    cases hcompile : compile (CacheManager.recordedTime modified? now identity) with
    | error e => rw [CacheManager.obtain_of_error hlookup hcompile]
    | ok result =>
      obtain ⟨b, report⟩ := result
      rw [CacheManager.obtain_of_ok hlookup hcompile] at h ⊢
      have hkey : key ≠ m.keyOf identity := fun heq => h ⟨heq.symm, _, report, rfl⟩
      exact (EntryStore.outcome_save ..).eq_of_wanted (Function.update_of_ne hkey _ _)

theorem entries_happen_of_not_touches {w : CacheSession σ} {key : String} {event : Event σ ε ρ}
    (h : ¬ w.Touches key event) :
    EntryStore.entries (w.happen event).manager.store key =
      EntryStore.entries w.manager.store key := by
  cases event with
  | own step =>
    cases step with
    | obtain now identity compile => exact entries_obtain_of_not h
    | obtainCode now identity compile => exact entries_obtain_of_not h
    | lookup identity => rfl
    | invalidate identity =>
      exact (EntryStore.outcome_remove ..).eq_of_wanted (Function.update_of_ne (Ne.symm h) _ _)
    | clear => exact absurd trivial h
    | restamp modified? => rfl
    | unsettle change => exact congrFun (change.property _) key
  | foreign call =>
    cases call with
    | load k => rfl
    | save k a =>
      exact (EntryStore.outcome_save ..).eq_of_wanted (Function.update_of_ne (Ne.symm h) _ _)
    | remove k =>
      exact (EntryStore.outcome_remove ..).eq_of_wanted (Function.update_of_ne (Ne.symm h) _ _)
    | clear => exact absurd trivial h

end events

/-! ## Artifacts that are handed out -/

section offers

variable [MapStore σ] {w : CacheSession σ} {identity : List Path} {a : Artifact}

/-- The artifact stands under the key of the identity and may be used for it. -/
structure Offers (w : CacheSession σ) (identity : List Path) (a : Artifact) : Prop where
  entry : EntryStore.entries w.manager.store (w.manager.keyOf identity) = some a
  usable : CacheManager.isUsable w.modified? identity a = true

theorem Offers.lookup_eq (h : w.Offers identity a) :
    w.manager.lookup w.modified? identity = some a :=
  CacheManager.lookup_eq_some_iff.mpr ⟨by rw [MapStore.load_eq, h.entry], h.usable⟩

/-- An event that spares the identity leaves its artifact in place. A call for the identity finds it
and so writes nothing. -/
theorem offers_happen {event : Event σ ε ρ} (h : w.Offers identity a)
    (hspares : w.Spares identity event) : (w.happen event).Offers identity a := by
  have hentry : EntryStore.entries (w.happen event).manager.store (w.manager.keyOf identity) =
      EntryStore.entries w.manager.store (w.manager.keyOf identity) := by
    apply entries_happen_of_not_touches
    by_cases hcall : event.IsCallFor identity
    · cases event with
      | foreign call => exact hcall.elim
      | own step =>
        cases step with
        | lookup | invalidate | clear | restamp | unsettle => exact hcall.elim
        | obtain now asked compile =>
          obtain rfl : asked = identity := hcall
          rintro ⟨-, b, report, hresult⟩
          rw [CacheManager.obtain_of_lookup_eq_some h.lookup_eq] at hresult
          cases hresult
        | obtainCode now asked compile =>
          obtain rfl : asked = identity := hcall
          rintro ⟨-, b, report, hresult⟩
          rw [CacheManager.obtainCode, CacheManager.obtain_of_lookup_eq_some h.lookup_eq] at hresult
          cases hresult
    · exact hspares.key hcall
  refine ⟨?_, ?_⟩
  · rw [keyOf_happen, hentry, h.entry]
  · rw [CacheManager.isUsable_congr hspares.times]
    exact h.usable

theorem offers_happenAll {events : List (Event σ ε ρ)} (h : w.Offers identity a)
    (hspares : w.SparesAll identity events) : (w.happenAll events).Offers identity a := by
  induction events generalizing w with
  | nil => exact h
  | cons event rest ih => exact ih (offers_happen h hspares.1) hspares.2

variable {ε' ρ' : Type} {now : Instant} {compile : Instant → Except ε (Artifact × ρ)} {report : ρ}
  {events : List (Event σ ε' ρ')}

theorem offers_after_obtain (hmiss : w.manager.lookup w.modified? identity = none)
    (hcompile : compile (CacheManager.recordedTime w.modified? now identity) = .ok (a, report))
    (hrecorded : a.recorded = CacheManager.recordedTime w.modified? now identity)
    (hsaved : (ArtifactStore.save w.manager.store (w.manager.keyOf identity)
      (CacheManager.stamp w.modified? identity a)).1 = .ok ()) :
    (w.after (.obtain now identity compile)).Offers identity
      (CacheManager.stamp w.modified? identity a) := by
  have hobtain := CacheManager.obtain_of_ok hmiss hcompile
  refine ⟨?_, CacheManager.isUsable_stamp hrecorded⟩
  rcases EntryStore.outcome_save w.manager.store (w.manager.keyOf identity)
    (CacheManager.stamp w.modified? identity a) with ⟨-, hentries⟩ | ⟨⟨e, herror⟩, -⟩
  · rw [keyOf_after, after, hobtain, hentries, Function.update_self]
  · rw [herror] at hsaved
    cases hsaved

/-- **Artifacts are used again.** A call has compiled an artifact with the time that it was given,
and the store has taken it. Behind any events that spare the identity, further calls for it among
them, the next call for the identity hands out the same artifact; its compile function does not run,
and the cache stays as it is. -/
theorem obtain_again (hmiss : w.manager.lookup w.modified? identity = none)
    (hcompile : compile (CacheManager.recordedTime w.modified? now identity) = .ok (a, report))
    (hrecorded : a.recorded = CacheManager.recordedTime w.modified? now identity)
    (hsaved : (ArtifactStore.save w.manager.store (w.manager.keyOf identity)
      (CacheManager.stamp w.modified? identity a)).1 = .ok ())
    (hspares : (w.after (.obtain now identity compile)).SparesAll identity events) :
    ∃ stored, (w.manager.obtain w.modified? now identity compile).1 = .ok (stored, some report) ∧
      ∀ v, v = (w.after (.obtain now identity compile)).happenAll events →
        (∀ (later : Instant) (again : Instant → Except ε' (Artifact × ρ')),
          (v.manager.obtainM v.modified? later identity (CacheManager.noting again)).run [] =
            ((.ok (stored, none), v.manager), [])) ∧
        ∀ (later : Instant) (code : Except ε' String),
          v.manager.obtainCode v.modified? later identity code =
            (.ok (stored, none), v.manager) := by
  refine ⟨CacheManager.stamp w.modified? identity a, ?_, ?_⟩
  · rw [CacheManager.obtain_of_ok hmiss hcompile]
  · rintro v rfl
    have hoffers := offers_happenAll (offers_after_obtain hmiss hcompile hrecorded hsaved) hspares
    refine ⟨fun later again => ?_, fun later code => ?_⟩
    · rw [CacheManager.obtainM_noting, CacheManager.obtain_of_lookup_eq_some hoffers.lookup_eq,
        hoffers.lookup_eq, if_neg (Option.some_ne_none _)]
    · rw [CacheManager.obtainCode, CacheManager.obtain_of_lookup_eq_some hoffers.lookup_eq]

end offers

/-- A cache whose keys are the first paths, with one layer from the future and one from before
1970. -/
def farTimes : CacheSession MemoryStore :=
  ⟨⟨.empty, fun identity => ((identity.head?).map (·.text)).getD ""⟩,
    CacheManager.twoTimes ⟨9⟩ ⟨-5⟩⟩

/-- Another file changes, somebody else writes another key, a call for other paths under the same
key does not compile, and a call for the same paths would compile something else. -/
def othersAtWork : List (Event MemoryStore TemplateError Unit) :=
  [.own (.restamp fun p => if p.Same ⟨"base/other.tpl"⟩ then some ⟨7⟩
      else CacheManager.twoTimes ⟨9⟩ ⟨-5⟩ p),
    .foreign (.save "base/other.tpl" (.new [] "foreign" ⟨3⟩)),
    .own (.obtain ⟨4⟩ [⟨"child/page.tpl"⟩] fun _ => .error (.noCandidate "page")),
    .own (.obtain ⟨5⟩ CacheManager.twoLayers (CacheManager.yields "two")),
    .own (.invalidate [⟨"base/other.tpl"⟩])]

theorem sparesAll_othersAtWork :
    (farTimes.after (.obtain ⟨2⟩ CacheManager.twoLayers (CacheManager.yields "one"))).SparesAll
      CacheManager.twoLayers othersAtWork := by
  have hother : "base/other.tpl" ≠ "child/page.tpl" := by decide
  refine ⟨⟨fun _ => id, by decide⟩, ⟨fun _ => hother, by decide⟩, ⟨?_, by decide⟩,
    ⟨fun hcall => absurd rfl hcall, by decide⟩, ⟨fun _ => hother, by decide⟩, trivial⟩
  rintro - ⟨-, a, report, hresult⟩
  cases hresult

/-- The artifact of the first call is still handed out, whatever the compile function would do. -/
theorem obtain_again_othersAtWork :
    ∃ stored, stored.code = "one" ∧
      ∀ v, v = (farTimes.after (.obtain ⟨2⟩ CacheManager.twoLayers
          (CacheManager.yields "one"))).happenAll othersAtWork →
        ∀ (later : Instant) (again : Instant → Except TemplateError (Artifact × Unit)),
          (v.manager.obtainM v.modified? later CacheManager.twoLayers
            (CacheManager.noting again)).run [] = ((.ok (stored, none), v.manager), []) := by
  have hmiss : farTimes.manager.lookup farTimes.modified? CacheManager.twoLayers = none := rfl
  have hcompile : CacheManager.yields "one" (CacheManager.recordedTime farTimes.modified? ⟨2⟩
      CacheManager.twoLayers) = .ok (.new CacheManager.twoLayers "one" ⟨9⟩, ()) := rfl
  have hsaved : (ArtifactStore.save farTimes.manager.store
      (farTimes.manager.keyOf CacheManager.twoLayers) (CacheManager.stamp farTimes.modified?
        CacheManager.twoLayers (.new CacheManager.twoLayers "one" ⟨9⟩))).1 = .ok () := rfl
  obtain ⟨stored, hanswer, hagain⟩ :=
    obtain_again hmiss hcompile rfl hsaved sparesAll_othersAtWork
  have hcode : stored.code = "one" :=
    congrArg (·.1.code) (Except.ok.inj hanswer).symm
  exact ⟨stored, hcode, fun v hv => (hagain v hv).1⟩

end CacheSession

end LayeredTags
