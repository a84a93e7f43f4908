import LayeredConfig.Proofs.Resolution.SingleFlight

/-!
What a look at a reference does to providers.

A look may take a reference from asking for its provider to fetching data with it.
`Site.Look` says what others can see of that at the registry: mostly nothing, and else
that the reference begins to build its provider, brings the building to its end, or gives
it up (`Site.poll_look`). Everything that holds of providers over time rests on these
five cases.
-/

namespace LayeredConfig

/-! ### Worlds before and after -/

@[simp] theorem Stage.isBuilding_building (wake : Nat) (outcome : Except Failure Provider) :
    (Stage.building wake outcome).isBuilding = true := rfl

namespace Progress

/-- Whether a reference that has come so far builds its provider. -/
def isBuilding : Progress → Bool
  | .waiting stage => stage.isBuilding
  | .settled _ => false

@[simp] theorem isBuilding_waiting (stage : Stage) :
    (Progress.waiting stage).isBuilding = stage.isBuilding := rfl

end Progress

namespace Registry

@[simp] theorem setBuilt_types (g : Registry) (name : String)
    (result : Except SetupError Provider) : (g.setBuilt name result).types = g.types := by
  unfold setBuilt
  split <;> rfl

theorem setBuilt_bindings {g g' : Registry} (same : g'.bindings = g.bindings) (name : String)
    (result : Except SetupError Provider) :
    (g'.setBuilt name result).bindings = (g.setBuilt name result).bindings := by
  unfold setBuilt
  rw [same]
  split
  · rfl
  · exact same

end Registry

/-- A world in which the same is bound as in another one, after no start of a provider. -/
structure World.Calm (w w' : World) : Prop where
  types : w'.registry.types = w.registry.types
  bindings : w'.registry.bindings = w.registry.bindings
  quiet : w.Adds (·.startedAlias? = none) w'

namespace World.Calm

variable {w w' w'' : World}

theorem of_same (registry : w'.registry = w.registry) (trace : w'.trace = w.trace) :
    w.Calm w' :=
  ⟨by rw [registry], by rw [registry], (World.Adds.refl w _).onward trace⟩

theorem refl (w : World) : w.Calm w := .of_same rfl rfl

theorem trans (first : w.Calm w') (next : w'.Calm w'') : w.Calm w'' :=
  ⟨next.types.trans first.types, next.bindings.trans first.bindings,
    first.quiet.trans next.quiet⟩

/-- It makes no difference for what is bound whether a building ends before or after. -/
theorem setBuilt (calm : w.Calm w') (name : String) (result : Except SetupError Provider) :
    (w.updateRegistry (·.setBuilt name result)).Calm
      (w'.updateRegistry (·.setBuilt name result)) := by
  refine ⟨?_, Registry.setBuilt_bindings calm.bindings name result, calm.quiet⟩
  simpa using calm.types

/-- An event that starts no provider. -/
theorem log (w : World) {e : Event} (quiet : e.startedAlias? = none) : w.Calm (w.log e) :=
  ⟨rfl, rfl, (World.Adds.refl w _).extend rfl quiet⟩

end World.Calm

/-- The provider of an alias is initialised, and how that ends is kept. -/
def World.Builds (w : World) (name : String) (w' : World) : Prop :=
  ∃ providerType config t,
    Assoc.get? w.registry.bindings name = some (.declared providerType config none) ∧
    Assoc.get? w.registry.types providerType = some t ∧
    ((w.log (.initStarted name config w.now)).updateRegistry (·.setBuilt name
      ((t.init w.trace name config).outcome.mapError (.init name)))).Calm w'

namespace Site

variable {r : Reference} {here : Address} {stage : Stage} {w : World}

/-! ### Once the provider is there -/

/-- A step that leaves providers alone, and after which the reference builds none. -/
def Apart (w : World) (out : Progress × World) : Prop :=
  w.Calm out.2 ∧ out.1.isBuilding = false

theorem Apart.since {w w' : World} {out : Progress × World} (apart : Apart w' out)
    (calm : w.Calm w') : Apart w out :=
  ⟨calm.trans apart.1, apart.2⟩

theorem endFetch_apart (r : Reference) (here : Address) (o : Outcome) (w : World) :
    Apart w (endFetch r here o w) := by
  obtain ⟨f, same⟩ := endFetch_eq r here o w
  rw [same]
  exact ⟨.of_same rfl rfl, rfl⟩

theorem watchFetch_apart (r : Reference) (here : Address) (wake : Nat)
    (outcome : Except Failure Value) (limit : Option Nat) (w : World) :
    Apart w (watchFetch r here wake outcome limit w) := by
  unfold watchFetch
  split
  · exact (endFetch_apart ..).since (.log w rfl)
  · split
    · exact endFetch_apart ..
    · exact ⟨.refl w, rfl⟩

theorem begin_calm {α : Type} (here : Address) (call : Call α) (w : World) :
    w.Calm (Site.begin here call w) := by
  obtain ⟨f, same⟩ := begin_eq here call w
  rw [same]
  exact .of_same rfl rfl

theorem launch_apart (p : Provider) (r : Reference) (here : Address) (w : World) :
    Apart w (launch p r here w) := by
  unfold launch
  dsimp only
  have started : w.Calm (Site.begin here (p.fetch w.trace r.requestPath)
      (w.log (.fetchStarted r.alias r.requestPath w.now))) :=
    (World.Calm.log w rfl).trans (begin_calm here _ _)
  split
  · exact (endFetch_apart ..).since started
  · exact (watchFetch_apart ..).since started

theorem acquire_apart (p : Provider) (r : Reference) (here : Address) (w : World) :
    Apart w (acquire p r here w) := by
  unfold acquire
  split
  · exact ⟨.of_same rfl rfl, rfl⟩
  · split
    · exact (launch_apart ..).since (.of_same rfl rfl)
    · exact ⟨.of_same rfl rfl, rfl⟩

theorem share_apart (p : Provider) (r : Reference) (here : Address) (w : World) :
    Apart w (share p r here w) := by
  unfold share
  split
  · exact ⟨.refl w, rfl⟩
  · dsimp only
    split
    · exact (acquire_apart ..).since (.of_same rfl rfl)
    · exact ⟨.of_same rfl rfl, rfl⟩

theorem withProvider_apart (r : Reference) (here : Address)
    (result : Except SetupError Provider) (w : World) :
    Apart w (withProvider r here result w) := by
  cases result with
  | ok p => exact share_apart ..
  | error e => exact ⟨.refl w, rfl⟩

/-- What comes after the end of a building leaves providers alone. -/
theorem endBuild_apart (r : Reference) (here : Address) (result : Except SetupError Provider)
    (w : World) :
    Apart (w.updateRegistry (·.setBuilt r.alias result)) (endBuild r here result w) :=
  (withProvider_apart r here result (w.setBuilt r.alias here result)).since (.of_same rfl rfl)

/-- What a reference gives back is no provider. -/
theorem release_calm (r : Reference) (here : Address) (w : World) (stage : Stage) :
    w.Calm (release r here w stage) := by
  obtain ⟨f, same⟩ := release_eq r here w stage
  rw [same]
  cases stage <;> exact ⟨rfl, rfl, .refl w _⟩

theorem rewatch_calm (here : Address) (p : Progress) (w : World) :
    w.Calm (rewatch here p w) := by
  unfold rewatch
  split
  · split
    · exact .of_same rfl rfl
    · exact .refl w
  · exact .refl w

/-! ### Looks -/

/-- What a look at a reference does to providers. -/
inductive Look (r : Reference) (stage : Stage) (w : World) : Progress → World → Prop where
  /-- Nothing. If the reference builds its provider, it goes on with that. -/
  | aside {p : Progress} {w' : World} (calm : w.Calm w')
      (same : p.isBuilding = stage.isBuilding) : Look r stage w p w'
  /-- The reference is interrupted while it builds its provider, and gives that up. -/
  | giveUp {p : Progress} {w' : World} (calm : w.Calm w') (building : stage.isBuilding = true)
      (interrupted : w.interruption?.isSome = true) (idle : p.isBuilding = false) :
      Look r stage w p w'
  /-- The reference begins to build its provider. -/
  | start {w' : World} {providerType : String} {config : Fields} {t : ProviderType} {wake : Nat}
      (idle : stage.isBuilding = false)
      (unbuilt : Assoc.get? w.registry.bindings r.alias
        = some (.declared providerType config none))
      (known : Assoc.get? w.registry.types providerType = some t)
      (calm : (w.log (.initStarted r.alias config w.now)).Calm w') :
      Look r stage w (.waiting (.building wake (t.init w.trace r.alias config).outcome)) w'
  /-- The reference builds its provider, which takes no time. -/
  | startAndFinish {p : Progress} {w' : World} (idle : stage.isBuilding = false)
      (builds : w.Builds r.alias w') (gone : p.isBuilding = false) : Look r stage w p w'
  /-- The building of the provider comes to its end. -/
  | finish {p : Progress} {w' : World} {wake : Nat} {outcome : Except Failure Provider}
      (building : stage = .building wake outcome)
      (calm : (w.updateRegistry (·.setBuilt r.alias
        (outcome.mapError (.init r.alias)))).Calm w')
      (gone : p.isBuilding = false) : Look r stage w p w'

theorem Apart.look {out : Progress × World} (apart : Apart w out)
    (idle : stage.isBuilding = false) : Look r stage w out.1 out.2 :=
  .aside apart.1 (apart.2.trans idle.symm)

/-- A world that is like another one in all that a look at providers depends on. -/
structure Alike (w v : World) : Prop where
  types : v.registry.types = w.registry.types
  bindings : v.registry.bindings = w.registry.bindings
  trace : v.trace = w.trace
  now : v.now = w.now
  interruption : v.interruption? = w.interruption?

/-- Changes that providers do not see may come before and after a look. -/
theorem Look.within {p : Progress} {v w' w'' : World} (look : Look r stage v p w')
    (before : Alike w v) (after : w'.Calm w'') : Look r stage w p w'' := by
  have before' : w.Calm v :=
    ⟨before.types, before.bindings, (World.Adds.refl w _).onward before.trace⟩
  have logged : ∀ e, (w.log e).Calm (v.log e) := fun e =>
    ⟨before.types, before.bindings, (World.Adds.refl _ _).onward (by simp [before.trace])⟩
  cases look with
  | aside calm same => exact .aside ((before'.trans calm).trans after) same
  | giveUp calm building interrupted idle =>
    rw [before.interruption] at interrupted
    exact .giveUp ((before'.trans calm).trans after) building interrupted idle
  | start idle unbuilt known calm =>
    rw [before.bindings] at unbuilt
    rw [before.types] at known
    rw [before.now] at calm
    rw [before.trace]
    exact .start idle unbuilt known (((logged _).trans calm).trans after)
  | startAndFinish idle builds gone =>
    obtain ⟨providerType, config, t, unbuilt, known, calm⟩ := builds
    rw [before.bindings] at unbuilt
    rw [before.types] at known
    rw [before.now, before.trace] at calm
    exact .startAndFinish idle ⟨providerType, config, t, unbuilt, known,
      (((logged _).setBuilt _ _).trans calm).trans after⟩ gone
  | finish building calm gone =>
    exact .finish building (((before'.setBuilt _ _).trans calm).trans after) gone

/-! ### Every look is one of these -/

theorem build_look {providerType : String} {config : Fields} {t : ProviderType}
    (idle : stage.isBuilding = false)
    (unbuilt : Assoc.get? w.registry.bindings r.alias = some (.declared providerType config none))
    (known : Assoc.get? w.registry.types providerType = some t) :
    Look r stage w (build r here providerType config w).1
      (build r here providerType config w).2 := by
  obtain ⟨f, begun⟩ := begin_eq here (t.init w.trace r.alias config)
    (w.log (.initStarted r.alias config w.now))
  simp only [build, known, begun]
  split
  · have ended := endBuild_apart r here
      ((t.init w.trace r.alias config).outcome.mapError (.init r.alias))
      (((w.log (.initStarted r.alias config w.now)).heed (t.init w.trace r.alias config)).plan f)
    have sooner : (w.log (.initStarted r.alias config w.now)).Calm
        (((w.log (.initStarted r.alias config w.now)).heed (t.init w.trace r.alias config)).plan
          f) := .of_same rfl rfl
    exact .startAndFinish idle ⟨providerType, config, t, unbuilt, known,
      (sooner.setBuilt _ _).trans ended.1⟩ ended.2
  · exact .start idle unbuilt known (.of_same rfl rfl)

section Known

variable (known : ∀ providerType config built,
  Assoc.get? w.registry.bindings r.alias = some (.declared providerType config built) →
    ∃ t, Assoc.get? w.registry.types providerType = some t)

include known

theorem provide_look (idle : stage.isBuilding = false) :
    Look r stage w (provide r here w).1 (provide r here w).2 := by
  unfold provide
  split
  · exact .aside (.refl w) idle.symm
  · exact (share_apart ..).look idle
  · exact (withProvider_apart ..).look idle
  · rename_i providerType config unbuilt
    obtain ⟨t, known⟩ := known _ _ _ unbuilt
    dsimp only
    split
    · exact (build_look (w := w.updateRegistry (·.lineUp r.alias here)) idle unbuilt known).within
        ⟨rfl, rfl, rfl, rfl, rfl⟩ (.refl _)
    · exact .aside ⟨rfl, rfl, .refl w _⟩ idle.symm

theorem proceed_look (stage : Stage) :
    Look r stage w (proceed r here w stage).1 (proceed r here w stage).2 := by
  cases stage with
  | fresh =>
    simp only [proceed, start]
    split
    · exact .aside (.refl w) rfl
    · exact provide_look known rfl
  | awaitingProvider => exact provide_look known rfl
  | building wake outcome =>
    have ended := endBuild_apart r here (outcome.mapError (.init r.alias)) w
    exact .finish rfl ended.1 ended.2
  | awaitingOutcome p => exact (share_apart ..).look rfl
  | queued p =>
    have launched : Apart w (proceed r here w (.queued p)) :=
      (launch_apart ..).since (.of_same rfl rfl)
    exact launched.look rfl
  | fetching wake outcome limit => exact (watchFetch_apart ..).look rfl

theorem attempt_look (stage : Stage) :
    Look r stage w (attempt r here stage w).1 (attempt r here stage w).2 := by
  unfold attempt
  split
  · rename_i i found
    have interrupted : w.interruption?.isSome = true := by
      split at found
      · rw [found]; rfl
      · cases found
    cases building : stage.isBuilding with
    | true => exact .giveUp (release_calm r here w stage) building interrupted rfl
    | false => exact .aside (release_calm r here w stage) building.symm
  · exact proceed_look known stage

/-- A look at a reference does one of five things to providers. -/
theorem poll_look (here : Address) (stage : Stage) :
    Look r stage w (poll r here stage w).1 (poll r here stage w).2 := by
  cases ready : isReady r here w stage with
  | false =>
    rw [poll_of_not_ready ready]
    exact .aside (.refl w) rfl
  | true =>
    rw [poll_of_ready ready]
    exact (attempt_look (w := w.plan (·.unwatch here)) known stage).within
      ⟨rfl, rfl, rfl, rfl, rfl⟩ (rewatch_calm here _ _)

end Known

/-- When it is time and nothing interrupts, a look ends the building of a provider. -/
theorem poll_due (r : Reference) (here : Address) {wake : Nat} (due : wake ≤ w.now)
    (live : w.interruption? = none) (outcome : Except Failure Provider) :
    Apart (w.updateRegistry (·.setBuilt r.alias (outcome.mapError (.init r.alias))))
      (poll r here (.building wake outcome) w) := by
  have ready : isReady r here w (.building wake outcome) = true := by simp [isReady, due]
  have ended : Apart (w.updateRegistry (·.setBuilt r.alias (outcome.mapError (.init r.alias))))
      (attempt r here (.building wake outcome) (w.plan (·.unwatch here))) := by
    simp only [attempt, Stage.isWatchful, if_true, World.plan_interruption?, live]
    have unwatched : w.Calm (w.plan (·.unwatch here)) := .of_same rfl rfl
    exact (endBuild_apart ..).since (unwatched.setBuilt _ _)
  rw [poll_of_ready ready]
  exact ⟨ended.1.trans (rewatch_calm here _ _), ended.2⟩

end Site

end LayeredConfig
