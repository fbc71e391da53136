import LayeredTags.Proofs.Cache.Edit
import LayeredTags.Proofs.Engine.Steps
import LayeredTags.Proofs.Store.Held
import Mathlib.Data.List.Induction

/-!
# Sources that change while a template is compiled

Others create, rewrite and delete candidates while a call is at work. Whatever they write is stamped
behind the clock.

* `Workshop.Event`, `Workshop.run`: steps of calls, and changes by others between them.
* `Workshop.Allows`: the clock moves on when something is written, and nothing is stamped in the
  future.
* `Workshop.Inv`: what was read of a candidate still holds unless it has been deleted or stamped
  behind the time that is recorded.
* `Workshop.Inv.concat`, `Workshop.Fresh.inv_run`: this is so after every history.

Proof idea. The recorded time is not behind the clock when a candidate is read. So what is written
after that is stamped behind the recorded time.
-/

namespace LayeredTags

/-- What was found still holds at a view, unless the path has been stamped behind a time or there is
nothing at it any more. -/
def Finding.Stands (r : Finding) (v : SourceView) (recorded : Instant) : Prop :=
  ∀ t, v.modified? r.path = some t → t ≤ recorded → v.read r.path = .ok r.text?

theorem Finding.Stands.evolves {r : Finding} {v w : SourceView} {paths : List Path}
    {recorded clock time : Instant} (h : r.Stands v recorded)
    (hevolves : v.Evolves w paths clock time) (hpath : r.path ∈ paths) (hle : recorded ≤ clock) :
    r.Stands w recorded := by
  intro u hu hrecorded
  rcases hevolves _ hpath with ⟨hread, hsame⟩ | hgone | ⟨hlt, hstamp⟩
  · rw [hsame] at hu
    rw [hread]
    exact h u hu hrecorded
  · rw [hgone] at hu
    cases hu
  · rw [hstamp] at hu
    obtain rfl := Option.some.inj hu
    exact absurd (Instant.le_trans hrecorded hle) (Instant.not_le_of_lt hlt)

namespace Workshop

/-! ## Events -/

/-- What happens in a workshop. -/
inductive Event (σ : Type) where
  /-- others change the sources or the store, or time passes -/
  | edit (time : Instant) (change : Engine σ → Engine σ)
  /-- a template is asked for, unless a call is at work -/
  | call (name : String)
  /-- the call at work makes a step -/
  | advance

section outline

variable {σ : Type} [HasDisk σ]

def settings (w : Workshop σ) : ThemeSettings :=
  w.engine.resolver.settings

def view (w : Workshop σ) : SourceView :=
  w.engine.view

def candidatesOf (w : Workshop σ) (names : List String) : List Path :=
  w.settings.candidatesOf names

/-- No candidate of the templates is stamped in the future, candidates with the same components are
one source, and exactly the existing ones can be read. -/
structure Orderly (w : Workshop σ) (names : List String) : Prop where
  past : ∀ p ∈ w.candidatesOf names, ∀ t, w.view.modified? p = some t → t ≤ w.clock
  paths : w.view.RespectsPaths (w.candidatesOf names)
  reads : w.view.ReadsExisting (w.candidatesOf names)

/-- What may change from one moment to the next. -/
structure Follows (w w' : Workshop σ) (names : List String) : Prop where
  settings : w'.settings = w.settings
  compiler : w'.engine.compiler = w.engine.compiler
  clock : w.clock ≤ w'.clock
  candidates : w.view.Evolves w'.view (w.candidatesOf names) w.clock w'.clock
  paths : w'.view.RespectsPaths (w.candidatesOf names)
  reads : w'.view.ReadsExisting (w.candidatesOf names)

variable {w w' : Workshop σ} {names : List String}

omit [HasDisk σ] in
theorem candidatesOf_congr (h : w'.settings = w.settings) (names : List String) :
    w'.candidatesOf names = w.candidatesOf names := by
  rw [candidatesOf, candidatesOf, h]

theorem Orderly.follows (h : w.Orderly names) (hfollows : w.Follows w' names) :
    w'.Orderly names where
  past p hp t ht := by
    rw [candidatesOf_congr hfollows.settings] at hp
    rcases hfollows.candidates p hp with ⟨-, hsame⟩ | hgone | ⟨-, hstamp⟩
    · rw [hsame] at ht
      exact Instant.le_trans (h.past p hp t ht) hfollows.clock
    · rw [hgone] at ht
      cases ht
    · rw [hstamp] at ht
      obtain rfl := Option.some.inj ht
      exact Instant.le_refl _
  paths := candidatesOf_congr hfollows.settings names ▸ hfollows.paths
  reads := candidatesOf_congr hfollows.settings names ▸ hfollows.reads

theorem Orderly.follows_of_agreeOn (h : w.Orderly names) (hsettings : w'.settings = w.settings)
    (hcompiler : w'.engine.compiler = w.engine.compiler) (hclock : w'.clock = w.clock)
    (hagree : w'.view.AgreeOn w.view (w.candidatesOf names)) : w.Follows w' names where
  settings := hsettings
  compiler := hcompiler
  clock := hclock ▸ Instant.le_refl _
  candidates := hagree.evolves _ _
  paths := h.paths.of_agreeOn hagree
  reads := h.reads.of_agreeOn hagree

end outline

variable {σ : Type} [ArtifactStore σ] [HasDisk σ]

def step (w : Workshop σ) : Event σ → Workshop σ
  | .edit time change => { w with engine := change w.engine, clock := time }
  | .call name =>
    match w.stage with
    | .idle | .answered _ => { w with stage := .called name }
    | _ => w
  | .advance => w.advance

def run (w : Workshop σ) (history : List (Event σ)) : Workshop σ :=
  history.foldl step w

variable {w w' : Workshop σ} {history : List (Event σ)} {event : Event σ} {name : String}
  {existing : List Path} {recorded : Instant} {found : List Finding} {a : Artifact}
  {emission : Emission} {r : Finding} {names : List String}

theorem run_concat : w.run (history ++ [event]) = (w.run history).step event :=
  List.foldl_concat ..

theorem step_call (w : Workshop σ) (name : String) :
    (w.step (.call name)).engine = w.engine ∧ (w.step (.call name)).clock = w.clock := by
  unfold step
  simp only
  split <;> exact ⟨rfl, rfl⟩

/-! ## What was read still holds -/

/-- At some moment the existing candidates of a template were these. -/
def Listed (w : Workshop σ) (history : List (Event σ)) (name : String) (existing : List Path) :
    Prop :=
  ∃ listing, listing <+: history ∧
    existing = CacheManager.existing (w.run listing).view.modified? (w.settings.candidates name)

/-- At some moment the existing candidates of a template were these, and not before that moment this
was found. -/
def Taken (w : Workshop σ) (history : List (Event σ)) (name : String) (existing : List Path)
    (r : Finding) : Prop :=
  ∃ listing later, listing ++ later <+: history ∧
    existing = CacheManager.existing (w.run listing).view.modified? (w.settings.candidates name) ∧
    (w.run (listing ++ later)).view.read r.path = .ok r.text?

/-- What was found at candidates, as it may stand behind an artifact with a recorded time and a list
of existing candidates. -/
structure Sound (w : Workshop σ) (names : List String) (history : List (Event σ)) (name : String)
    (recorded : Instant) (existing : List Path) (found : List Finding) : Prop where
  recorded_le : recorded ≤ (w.run history).clock
  listed : w.Listed history name existing
  candidate : ∀ r ∈ found, r.path ∈ w.candidatesOf names
  taken : ∀ r ∈ found, w.Taken history name existing r
  stands : ∀ r ∈ found, r.Stands (w.run history).view recorded

/-- What is known while a call is at work. -/
def StageOk (w : Workshop σ) (names : List String) (history : List (Event σ)) : Stage → Prop
  | .called name | .present name | .missed name => name ∈ names
  | .timed name started => name ∈ names ∧ started ≤ (w.run history).clock
  | .listed name started existing =>
    name ∈ names ∧ started ≤ (w.run history).clock ∧ w.Listed history name existing
  | .reading name recorded existing found rest =>
    name ∈ names ∧ w.Sound names history name recorded existing found ∧
      found.map (·.path) ++ rest = w.settings.candidates name
  | .idle | .answered _ => True

/-- An artifact is what compiling the texts yields that were found at the candidates of a
template. -/
structure Borne (w : Workshop σ) (names : List String) (history : List (Event σ)) (a : Artifact)
    (name : String) (found : List Finding) (emission : Emission) : Prop where
  sound : w.Sound names history name a.recorded a.existing found
  paths : found.map (·.path) = w.settings.candidates name
  identity : a.identity = w.settings.candidates name
  nonempty : found.filterMap (·.text?) ≠ []
  compiled : w.engine.compiler.compileLayers (found.filterMap (·.text?)) = .ok emission
  code : a.code = emission.code
  diagnostics : a.diagnostics = emission.diagnostics

theorem Listed.concat (h : w.Listed history name existing) (event : Event σ) :
    w.Listed (history ++ [event]) name existing := by
  obtain ⟨listing, hlisting, rfl⟩ := h
  exact ⟨listing, hlisting.trans (List.prefix_append ..), rfl⟩

theorem Taken.concat (h : w.Taken history name existing r) (event : Event σ) :
    w.Taken (history ++ [event]) name existing r := by
  obtain ⟨listing, later, hlater, hexisting, hread⟩ := h
  exact ⟨listing, later, hlater.trans (List.prefix_append ..), hexisting, hread⟩

theorem Sound.concat (h : w.Sound names history name recorded existing found)
    (hsettings : (w.run history).settings = w.settings)
    (hfollows : (w.run history).Follows (w.run (history ++ [event])) names) :
    w.Sound names (history ++ [event]) name recorded existing found where
  recorded_le := Instant.le_trans h.recorded_le hfollows.clock
  listed := h.listed.concat event
  candidate := h.candidate
  taken r hr := (h.taken r hr).concat event
  stands r hr :=
    (h.stands r hr).evolves hfollows.candidates
      (candidatesOf_congr hsettings names ▸ h.candidate r hr) h.recorded_le

theorem Sound.concat_finding {path : Path} {text? : Option String}
    (h : w.Sound names history name recorded existing found)
    (hcandidate : path ∈ w.candidatesOf names)
    (hread : (w.run history).view.read path = .ok text?) :
    w.Sound names history name recorded existing (found ++ [⟨path, text?⟩]) where
  recorded_le := h.recorded_le
  listed := h.listed
  candidate r hr := by
    rcases List.mem_append.mp hr with hr | hr
    · exact h.candidate r hr
    · rw [List.mem_singleton.mp hr]
      exact hcandidate
  taken r hr := by
    rcases List.mem_append.mp hr with hr | hr
    · exact h.taken r hr
    · obtain ⟨listing, ⟨later, rfl⟩, hexisting⟩ := h.listed
      rw [List.mem_singleton.mp hr]
      exact ⟨listing, later, List.prefix_refl _, hexisting, hread⟩
  stands r hr := by
    rcases List.mem_append.mp hr with hr | hr
    · exact h.stands r hr
    · rw [List.mem_singleton.mp hr]
      exact fun _ _ _ => hread

theorem Borne.concat (h : w.Borne names history a name found emission)
    (hsettings : (w.run history).settings = w.settings)
    (hfollows : (w.run history).Follows (w.run (history ++ [event])) names) :
    w.Borne names (history ++ [event]) a name found emission :=
  { h with sound := h.sound.concat hsettings hfollows }

theorem StageOk.concat {stage : Stage} (h : w.StageOk names history stage)
    (hsettings : (w.run history).settings = w.settings)
    (hfollows : (w.run history).Follows (w.run (history ++ [event])) names) :
    w.StageOk names (history ++ [event]) stage := by
  cases stage with
  | timed name started => exact ⟨h.1, Instant.le_trans h.2 hfollows.clock⟩
  | listed name started existing =>
    exact ⟨h.1, Instant.le_trans h.2.1 hfollows.clock, h.2.2.concat event⟩
  | reading name recorded existing found rest =>
    exact ⟨h.1, h.2.1.concat hsettings hfollows, h.2.2⟩
  | called | present | missed => exact h
  | idle | answered => trivial

/-! ## After every history -/

variable [HoldingStore σ]

/-- Others stamp what they write at the candidates of the templates and bring no artifacts of them;
no other template is called; and a call that stores an artifact leaves the candidates alone. -/
def Allows (w : Workshop σ) (names : List String) : Event σ → Prop
  | .edit time change => w.Follows (w.step (.edit time change)) names ∧
      ∀ name ∈ names, ∀ a, (change w.engine).Holds name a → w.engine.Holds name a
  | .call name => name ∈ names
  | .advance => w.advance.view.AgreeOn w.view (w.candidatesOf names)

/-- Every event is allowed when its turn comes. -/
def AllowsAll (w : Workshop σ) (names : List String) : List (Event σ) → Prop
  | [] => True
  | event :: rest => w.Allows names event ∧ (w.step event).AllowsAll names rest

theorem allowsAll_append {rest : List (Event σ)} : w.AllowsAll names (history ++ rest) ↔
    w.AllowsAll names history ∧ (w.run history).AllowsAll names rest := by
  induction history generalizing w with
  | nil => simp [AllowsAll, run]
  | cons event history ih =>
    rw [List.cons_append, AllowsAll, AllowsAll, ih, and_assoc]
    rfl

theorem Orderly.follows_step (h : w.Orderly names) (hallowed : w.Allows names event) :
    w.Follows (w.step event) names := by
  cases event with
  | edit time change => exact hallowed.1
  | call name =>
    obtain ⟨hengine, hclock⟩ := w.step_call name
    refine h.follows_of_agreeOn ?_ ?_ hclock ?_
    · rw [settings, hengine, settings]
    · rw [hengine]
    · rw [view, hengine]
      exact .refl _ _
  | advance =>
    refine h.follows_of_agreeOn ?_ ?_ w.advance_clock hallowed
    · rw [step, settings, settings]
      rcases w.advance_engine with hengine | ⟨_, _, _, _, _, -, -, -, hengine⟩ <;> rw [hengine]
      rfl
    · rw [step]
      rcases w.advance_engine with hengine | ⟨_, _, _, _, _, -, -, -, hengine⟩ <;> rw [hengine]
      rfl

/-- What holds after every history. -/
structure Inv (w : Workshop σ) (names : List String) (history : List (Event σ)) : Prop where
  settings : (w.run history).settings = w.settings
  compiler : (w.run history).engine.compiler = w.engine.compiler
  orderly : (w.run history).Orderly names
  stage : w.StageOk names history (w.run history).stage
  held : ∀ name ∈ names, ∀ a, (w.run history).engine.Holds name a →
    ∃ compiled found emission, w.Borne names history a compiled found emission

/-- No call is at work and no artifact of the templates is stored. -/
structure Fresh (w : Workshop σ) (names : List String) : Prop where
  idle : w.stage = .idle
  empty : ∀ name ∈ names, ∀ a, ¬ w.engine.Holds name a
  orderly : w.Orderly names

theorem Fresh.inv (h : w.Fresh names) : w.Inv names [] where
  settings := rfl
  compiler := rfl
  orderly := h.orderly
  stage := by
    show w.StageOk names [] w.stage
    rw [h.idle]
    trivial
  held name hname a ha := absurd ha (h.empty name hname a)

theorem Inv.resolve_eq (h : w.Inv names history) (name : String) :
    (w.run history).engine.resolve name = w.settings.candidates name :=
  congrArg (ThemeSettings.candidates · name) h.settings

theorem Inv.stage_advance (h : w.Inv names history)
    (hfollows : (w.run history).Follows (w.run (history ++ [.advance])) names) :
    w.StageOk names (history ++ [.advance]) (w.run history).advance.stage := by
  have hstage := h.stage
  have hclock := hfollows.clock
  unfold advance
  cases hat : (w.run history).stage with
  | idle => simp only [hat, StageOk]
  | answered answer => simp only [hat, StageOk]
  | called name =>
    rw [hat] at hstage
    simp only
    split
    · exact hstage
    · trivial
  | present name =>
    rw [hat] at hstage
    simp only
    split
    · trivial
    · exact hstage
  | missed name =>
    rw [hat] at hstage
    exact ⟨hstage, hclock⟩
  | timed name started =>
    rw [hat] at hstage
    refine ⟨hstage.1, Instant.le_trans hstage.2 hclock, history, List.prefix_append .., ?_⟩
    rw [h.resolve_eq]
    rfl
  | listed name started existing =>
    rw [hat] at hstage
    obtain ⟨hname, hstarted, hlisted⟩ := hstage
    -- no candidate is stamped in the future, so the recorded time is not behind the clock
    have hrecorded : CacheManager.recordedTime (w.run history).engine.view.modified? started
        ((w.run history).engine.resolve name) ≤ (w.run history).clock :=
      CacheManager.recordedTime_le hstarted fun p hp =>
        h.orderly.past p (ThemeSettings.candidates_subset hname hp)
    refine ⟨hname, ⟨Instant.le_trans hrecorded hclock, hlisted.concat _, ?_, ?_, ?_⟩,
      h.resolve_eq name⟩
    · nofun
    · nofun
    · nofun
  | reading name recorded existing found rest =>
    rw [hat] at hstage
    obtain ⟨hname, hsound, hpaths⟩ := hstage
    cases rest with
    | nil => trivial
    | cons path rest =>
      simp only
      cases hread : (w.run history).engine.view.read path with
      | error err => trivial
      | ok text? =>
        have hcandidate : path ∈ w.candidatesOf names :=
          ThemeSettings.candidates_subset hname (hpaths ▸ List.mem_append_right _ (.head _))
        refine ⟨hname, (hsound.concat_finding hcandidate hread).concat h.settings hfollows, ?_⟩
        rw [List.map_append, List.append_assoc]
        exact hpaths

theorem Inv.held_advance (h : w.Inv names history)
    (hfollows : (w.run history).Follows (w.run (history ++ [.advance])) names)
    (hname : name ∈ names) (hheld : (w.run history).advance.engine.Holds name a) :
    ∃ compiled found emission,
      w.Borne names (history ++ [.advance]) a compiled found emission := by
  have hold : (w.run history).engine.Holds name a → ∃ compiled found emission,
      w.Borne names (history ++ [.advance]) a compiled found emission := by
    intro hthere
    obtain ⟨compiled, found, emission, hborne⟩ := h.held name hname a hthere
    exact ⟨compiled, found, emission, hborne.concat h.settings hfollows⟩
  -- only the last step of a call stores something, and what was found until then is sound
  rcases (w.run history).advance_engine with
    hsame | ⟨compiled, recorded, existing, found, emission, hat, hne, hcompile, hkeep⟩
  · exact hold (hsame ▸ hheld)
  · rw [hkeep] at hheld
    rcases Engine.holds_of_keep hheld with rfl | hthere
    · have hstage := h.stage
      rw [hat] at hstage
      obtain ⟨-, hsound, hpaths⟩ := hstage
      rw [List.append_nil] at hpaths
      exact ⟨compiled, found, emission, hsound.concat h.settings hfollows, hpaths,
        h.resolve_eq compiled, hne, h.compiler ▸ hcompile, rfl, rfl⟩
    · exact hold hthere

/-- **One event.** What holds after a history holds after one more event that is allowed. -/
theorem Inv.concat (h : w.Inv names history) (hallowed : (w.run history).Allows names event) :
    w.Inv names (history ++ [event]) := by
  have hfollows : (w.run history).Follows (w.run (history ++ [event])) names := by
    rw [run_concat]
    exact h.orderly.follows_step hallowed
  refine ⟨hfollows.settings.trans h.settings, hfollows.compiler.trans h.compiler,
    h.orderly.follows hfollows, ?_, ?_⟩
  · rw [run_concat]
    cases event with
    | edit time change => exact h.stage.concat h.settings hfollows
    | advance => exact h.stage_advance hfollows
    | call name =>
      unfold step
      simp only
      split
      · exact hallowed
      · exact hallowed
      · exact h.stage.concat h.settings hfollows
  · intro name hname a ha
    rw [run_concat] at ha
    cases event with
    | advance => exact h.held_advance hfollows hname ha
    | edit time change =>
      obtain ⟨compiled, found, emission, hborne⟩ := h.held name hname a (hallowed.2 name hname a ha)
      exact ⟨compiled, found, emission, hborne.concat h.settings hfollows⟩
    | call _ =>
      rw [((w.run history).step_call _).1] at ha
      obtain ⟨compiled, found, emission, hborne⟩ := h.held name hname a ha
      exact ⟨compiled, found, emission, hborne.concat h.settings hfollows⟩

/-- **All events.** It holds after every history that is allowed. -/
theorem Fresh.inv_run (h : w.Fresh names) (hallowed : w.AllowsAll names history) :
    w.Inv names history := by
  induction history using List.reverseRecOn with
  | nil => exact h.inv
  | append_singleton history event ih =>
    obtain ⟨hbefore, hevent, -⟩ := allowsAll_append.mp hallowed
    exact (ih hbefore).concat hevent

theorem Inv.same {p q : Path} (h : w.Inv names history) (hp : p ∈ w.candidatesOf names)
    (hq : q ∈ w.candidatesOf names) (hsame : p.Same q) :
    (w.run history).view.read p = (w.run history).view.read q ∧
      (w.run history).view.modified? p = (w.run history).view.modified? q :=
  have hcandidates := candidatesOf_congr h.settings names
  h.orderly.paths p (hcandidates ▸ hp) q (hcandidates ▸ hq) hsame

end Workshop

end LayeredTags
