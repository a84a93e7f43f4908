import LayeredConfig.Proofs.Resolution.Lines
import LayeredConfig.Resolution.Site

/-!
What a site can do.

A look at a site may take it through several stages at once. `Site.Move` lists the
single moves that such a look is made of: under which conditions each one happens, to
which stage it leads and what it changes in the world. The changes are those that
others can observe; whom a move wakes is left to `Site.Move.turn`.

Proved here:

* `Site.poll_moves` says that a look at a site is a run of such moves, so what every
  move keeps, every look keeps. Each way that a look can go has its own lemma:
  `Site.start_moves` and `Site.provide_moves` for a reference that looks for its provider,
  `Site.build_moves` for one that builds it, `Site.share_moves` and `Site.acquire_moves`
  for one that is after its outcome, and `Site.watchFetch_moves` for one that fetches.
* `Site.attempt_moves` and `Site.poll_of_ready` tell a look at a site that can move, and
  `Site.poll_of_not_ready` one at a site that cannot: nothing happens.
* `Site.release_eq` says what a site gives back when it is dropped or interrupted, and
  `Site.stop_moves` that an interruption is one move.
* `Site.forall_kept_conclude` says that what is true of all outcomes that are kept stays
  true when a fetch is over, if it is true of what the fetch came to.
-/

namespace LayeredConfig

/-- Which provider an alias stands for by now. -/
def Registry.Provides (r : Registry) (name : String) (p : Provider) : Prop :=
  Assoc.get? r.bindings name = some (.installed p) ∨
    ∃ providerType config,
      Assoc.get? r.bindings name = some (.declared providerType config (some (.ok p)))

namespace World

/-- The context once a call has started. -/
def heed {α : Type} (w : World) (call : Call α) : World :=
  { w with context := if call.cancels then w.context.cancel else w.context }

section Fields

variable (w : World) (f : Agenda → Agenda) (g : Resolver → Resolver) (h : Registry → Registry)
  (e : Event) {α : Type} (call : Call α)

@[simp] theorem plan_now : (w.plan f).now = w.now := rfl
@[simp] theorem plan_context : (w.plan f).context = w.context := rfl
@[simp] theorem plan_registry : (w.plan f).registry = w.registry := rfl
@[simp] theorem plan_resolver : (w.plan f).resolver = w.resolver := rfl
@[simp] theorem plan_trace : (w.plan f).trace = w.trace := rfl

@[simp] theorem update_now : (w.update g).now = w.now := rfl
@[simp] theorem update_context : (w.update g).context = w.context := rfl
@[simp] theorem update_registry : (w.update g).registry = w.registry := rfl
@[simp] theorem update_resolver : (w.update g).resolver = g w.resolver := rfl
@[simp] theorem update_trace : (w.update g).trace = w.trace := rfl

@[simp] theorem updateRegistry_now : (w.updateRegistry h).now = w.now := rfl
@[simp] theorem updateRegistry_context : (w.updateRegistry h).context = w.context := rfl
@[simp] theorem updateRegistry_registry : (w.updateRegistry h).registry = h w.registry := rfl
@[simp] theorem updateRegistry_resolver : (w.updateRegistry h).resolver = w.resolver := rfl
@[simp] theorem updateRegistry_trace : (w.updateRegistry h).trace = w.trace := rfl

@[simp] theorem log_now : (w.log e).now = w.now := rfl
@[simp] theorem log_context : (w.log e).context = w.context := rfl
@[simp] theorem log_registry : (w.log e).registry = w.registry := rfl
@[simp] theorem log_resolver : (w.log e).resolver = w.resolver := rfl
@[simp] theorem log_trace : (w.log e).trace = e :: w.trace := rfl

@[simp] theorem heed_now : (w.heed call).now = w.now := rfl
@[simp] theorem heed_context :
    (w.heed call).context = if call.cancels then w.context.cancel else w.context := rfl
@[simp] theorem heed_registry : (w.heed call).registry = w.registry := rfl
@[simp] theorem heed_resolver : (w.heed call).resolver = w.resolver := rfl
@[simp] theorem heed_trace : (w.heed call).trace = w.trace := rfl

@[simp] theorem plan_interruption? : (w.plan f).interruption? = w.interruption? := rfl
@[simp] theorem update_interruption? : (w.update g).interruption? = w.interruption? := rfl
@[simp] theorem updateRegistry_interruption? :
    (w.updateRegistry h).interruption? = w.interruption? := rfl
@[simp] theorem log_interruption? : (w.log e).interruption? = w.interruption? := rfl

end Fields

end World

namespace Site

/-- Give back what a site holds at a stage. -/
def surrender (r : Reference) (here : Address) : Stage → World → World
  | .fresh, w => w
  | .awaitingProvider, w => w.updateRegistry (·.leaveLine r.alias here)
  | .building _ _, w => w.updateRegistry (·.leaveLine r.alias here)
  | .awaitingOutcome _, w => w.update (·.leaveLine r.key here)
  | .queued _, w => w.update fun s => (s.leaveQueue here).leaveLine r.key here
  | .fetching _ _ _, w => w.update fun s => s.returnPermit.leaveLine r.key here

/-- Return the permit of a fetch and keep its outcome. -/
def conclude (r : Reference) (o : Outcome) (w : World) : World :=
  w.update fun s => s.returnPermit.record r.key o

/-- The outcome of a fetch that is over is kept under its key, and no other one changes. -/
theorem get?_conclude (r : Reference) (o : Outcome) (w : World) (key : String) :
    Assoc.get? (conclude r o w).resolver.cache key
      = if r.key = key then some o else Assoc.get? w.resolver.cache key :=
  Assoc.get?_insert ..

/-- What is true of all outcomes that are kept stays so when one more is that it is true of. -/
theorem forall_kept_conclude {Q : String → Outcome → Prop} {r : Reference} {o : Outcome}
    {w : World} (new : Q r.key o)
    (kept : ∀ key o, Assoc.get? w.resolver.cache key = some o → Q key o) :
    ∀ key o', Assoc.get? (conclude r o w).resolver.cache key = some o' → Q key o' := by
  intro key o' found
  rw [get?_conclude] at found
  split at found
  · rename_i same
    cases found
    exact same ▸ new
  · exact kept key o' found

/-- Start to build a provider. -/
def initiate (r : Reference) (config : Fields) (call : Call Provider) (w : World) : World :=
  (w.log (.initStarted r.alias config w.now)).heed call

/-- Start a fetch. -/
def dispatch (r : Reference) (call : Call Value) (w : World) : World :=
  ((w.update Resolver.takePermit).log (.fetchStarted r.alias r.requestPath w.now)).heed call

/-- The stage of a fetch that has just started. -/
def underway (call : Call Value) (w : World) : Stage :=
  .fetching (w.now + call.delay) call.outcome (w.resolver.policy.fetchTimeout.map (w.now + ·))

/-- A single move of a site: from a stage and a world to what becomes of both. -/
inductive Move (r : Reference) (here : Address) : Stage → World → Progress → World → Prop where
  /-- Others are woken, or put off. -/
  | turn (stage : Stage) (w : World) (f : Agenda → Agenda) :
      Move r here stage w (.waiting stage) (w.plan f)
  /-- An interruption makes the site give back what it holds. -/
  | stop {stage : Stage} {w : World} {i : Interruption} (interrupted : w.interruption? = some i) :
      Move r here stage w (Site.interrupted i) (surrender r here stage w)
  /-- The outcome is there. -/
  | remember {w : World} {o : Outcome} (cached : Assoc.get? w.resolver.cache r.key = some o) :
      Move r here .fresh w (.settled (settle r o)) w
  | unbound {w : World} (free : Assoc.get? w.registry.bindings r.alias = none) :
      Move r here .fresh w (.settled (.error (.notRegistered r))) w
  /-- The provider could not be built. -/
  | refused {w : World} {providerType : String} {config : Fields} {e : SetupError}
      (built : Assoc.get? w.registry.bindings r.alias
        = some (.declared providerType config (some (.error e)))) :
      Move r here .fresh w (.settled (.error (.unresolved r (.setup e)))) w
  /-- The provider has yet to be built: get in line for that. -/
  | seekProvider {w : World} {providerType : String} {config : Fields}
      (unbuilt : Assoc.get? w.registry.bindings r.alias
        = some (.declared providerType config none)) :
      Move r here .fresh w (.waiting .awaitingProvider)
        (w.updateRegistry (·.lineUp r.alias here))
  /-- Somebody else has built the provider. -/
  | providerBuilt {w : World} (built : w.registry.isUnbuilt r.alias = false) :
      Move r here .awaitingProvider w (.waiting .fresh) w
  /-- In front of the line: build the provider. -/
  | build {w : World} {providerType : String} {config : Fields} {t : ProviderType}
      (unbuilt : Assoc.get? w.registry.bindings r.alias
        = some (.declared providerType config none))
      (first : w.registry.lines.isFirst r.alias here)
      (live : w.interruption? = none) (known : Assoc.get? w.registry.types providerType = some t) :
      Move r here .awaitingProvider w
        (.waiting (.building (w.now + (t.init w.trace r.alias config).delay)
          (t.init w.trace r.alias config).outcome))
        (initiate r config (t.init w.trace r.alias config) w)
  /-- In front of the line, but nothing can be built. -/
  | unknownType {w : World} {providerType : String} {config : Fields}
      (unbuilt : Assoc.get? w.registry.bindings r.alias
        = some (.declared providerType config none))
      (first : w.registry.lines.isFirst r.alias here)
      (unknown : Assoc.get? w.registry.types providerType = none) :
      Move r here .awaitingProvider w (.waiting .fresh)
        (w.updateRegistry (·.setBuilt r.alias (.error (.unknownType r.alias providerType))))
  | built {w : World} {wake : Nat} {outcome : Except Failure Provider} {providerType : String}
      {config : Fields} (due : wake ≤ w.now)
      (unbuilt : Assoc.get? w.registry.bindings r.alias
        = some (.declared providerType config none)) :
      Move r here (.building wake outcome) w (.waiting .fresh)
        (w.updateRegistry (·.setBuilt r.alias (outcome.mapError (.init r.alias))))
  /-- The outcome is not there: get in line for it. -/
  | seekOutcome {w : World} {p : Provider} (provides : w.registry.Provides r.alias p)
      (uncached : Assoc.get? w.resolver.cache r.key = none) :
      Move r here .fresh w (.waiting (.awaitingOutcome p)) (w.update (·.lineUp r.key here))
  /-- Somebody else has fetched the outcome. -/
  | outcomeFetched {w : World} {p : Provider}
      (cached : Assoc.contains w.resolver.cache r.key = true) :
      Move r here (.awaitingOutcome p) w (.waiting .fresh) w
  /-- In front of the line, without a permit to spare. -/
  | enqueue {w : World} {p : Provider} (first : w.resolver.lines.isFirst r.key here)
      (uncached : Assoc.get? w.resolver.cache r.key = none)
      (busy : w.resolver.hasSpare = false) :
      Move r here (.awaitingOutcome p) w (.waiting (.queued p)) (w.update (·.enqueue here))
  /-- In front of the line, with a permit to spare: fetch. -/
  | launch {w : World} {p : Provider} (first : w.resolver.lines.isFirst r.key here)
      (uncached : Assoc.get? w.resolver.cache r.key = none)
      (spare : w.resolver.hasSpare = true) (live : w.interruption? = none) :
      Move r here (.awaitingOutcome p) w
        (.waiting (underway (p.fetch w.trace r.requestPath) w))
        (dispatch r (p.fetch w.trace r.requestPath) w)
  /-- A permit has come free: fetch. -/
  | launchQueued {w : World} {p : Provider} (next : w.resolver.isNext here = true)
      (live : w.interruption? = none) :
      Move r here (.queued p) w
        (.waiting (underway (p.fetch w.trace r.requestPath) w))
        (dispatch r (p.fetch w.trace r.requestPath) (w.update (·.leaveQueue here)))
  /-- A fetch without a delay is over. -/
  | fetched {w : World} {wake : Nat} {outcome : Except Failure Value} {limit : Option Nat}
      (due : wake ≤ w.now) :
      Move r here (.fetching wake outcome limit) w
        (.settled (settle r (outcome.mapError .reported)))
        (conclude r (outcome.mapError .reported) w)
  /-- A fetch with a delay is over. -/
  | arrived {w : World} {wake : Nat} {outcome : Except Failure Value} {limit : Option Nat}
      (due : wake ≤ w.now) :
      Move r here (.fetching wake outcome limit) w
        (.settled (settle r (outcome.mapError .reported)))
        (conclude r (outcome.mapError .reported)
          (w.log (.fetchEnded r.alias r.requestPath w.now)))
  /-- A fetch has reached its limit. -/
  | timedOut {w : World} {wake : Nat} {outcome : Except Failure Value} {limit : Option Nat}
      (early : w.now < wake) (late : Context.reached limit w.now = true) :
      Move r here (.fetching wake outcome limit) w
        (.settled (settle r (.error (.timedOut (w.resolver.policy.fetchTimeout.getD 0)))))
        (conclude r (.error (.timedOut (w.resolver.policy.fetchTimeout.getD 0))) w)

/-- Several moves of a site, one after the other. -/
inductive Moves (r : Reference) (here : Address) : Stage → World → Progress → World → Prop where
  | rest (stage : Stage) (w : World) : Moves r here stage w (.waiting stage) w
  | last {stage : Stage} {w w' : World} {p : Progress} (move : Move r here stage w p w') :
      Moves r here stage w p w'
  | more {stage stage' : Stage} {w w' w'' : World} {p : Progress}
      (move : Move r here stage w (.waiting stage') w') (moves : Moves r here stage' w' p w'') :
      Moves r here stage w p w''

/-! ### A look is a run of moves -/

section Looks

variable {r : Reference} {here : Address} {p : Provider} {w : World}

/-- A move that leads to another stage may be followed by a change of turns. -/
theorem Moves.turn {stage stage' : Stage} {w w' : World}
    (moves : Moves r here stage w (.waiting stage') w') (f : Agenda → Agenda) :
    Moves r here stage w (.waiting stage') (w'.plan f) := by
  generalize hp : Progress.waiting stage' = p at moves
  induction moves with
  | rest => cases hp; exact .last (.turn _ _ f)
  | last move => cases hp; exact .more move (.last (.turn _ _ f))
  | more move _ ih => exact .more move (ih hp)

/-- What a site holds goes back, whoever is woken by that. -/
theorem release_eq (r : Reference) (here : Address) (w : World) (stage : Stage) :
    ∃ f, release r here w stage = surrender r here stage (w.plan f) := by
  cases stage with
  | fresh => exact ⟨id, rfl⟩
  | awaitingProvider =>
    exact ⟨(·.wakeAll (w.registry.lines.heir? r.alias here).toList), rfl⟩
  | building wake outcome =>
    exact ⟨(·.wakeAll (w.registry.lines.heir? r.alias here).toList), rfl⟩
  | awaitingOutcome p => exact ⟨(·.wakeAll (w.resolver.lines.heir? r.key here).toList), rfl⟩
  | queued p =>
    by_cases next : w.resolver.isNext here
    · refine ⟨fun g => (g.wakeAll w.resolver.firstUnserved?.toList).wakeAll
        (w.resolver.lines.heir? r.key here).toList, ?_⟩
      simp only [release, World.leaveQueue, next, if_true]
      rfl
    · refine ⟨(·.wakeAll (w.resolver.lines.heir? r.key here).toList), ?_⟩
      simp only [release, World.leaveQueue, next]
      rfl
  | fetching wake outcome limit =>
    exact ⟨fun g => (g.wakeAll w.resolver.firstUnserved?.toList).wakeAll
      (w.resolver.lines.heir? r.key here).toList, rfl⟩

/-- An interruption is one move, once those have been woken who wait for what is given back. -/
theorem stop_moves (stage : Stage) {i : Interruption} (interrupted : w.interruption? = some i) :
    Moves r here stage w (Site.interrupted i) (release r here w stage) := by
  obtain ⟨f, same⟩ := release_eq r here w stage
  rw [same]
  exact .more (.turn _ _ f) (.last (.stop interrupted))

/-- The start of a call changes the context if the call cancels, and turns. -/
theorem begin_eq {α : Type} (here : Address) (call : Call α) (w : World) :
    ∃ f, Site.begin here call w = (w.heed call).plan f := by
  unfold Site.begin World.begin World.heed
  by_cases cancels : call.cancels = true
  · refine ⟨fun g => (g.wakeAll w.agenda.watching).wake here, ?_⟩
    simp only [cancels, if_true]
    rfl
  · exact ⟨id, by simp only [cancels]; rfl⟩

/-- The end of a fetch changes turns, and then is what `conclude` says. -/
theorem endFetch_eq (r : Reference) (here : Address) (o : Outcome) (w : World) :
    ∃ f, endFetch r here o w = (.settled (settle r o), conclude r o (w.plan f)) :=
  ⟨fun g => (g.wakeAll w.resolver.firstUnserved?.toList).wakeAll
    ((w.resolver.lines.leave r.key here).members r.key), rfl⟩

/-- A look at a fetch: it is over, it has reached its limit, or it goes on. -/
theorem watchFetch_moves (wake : Nat) (outcome : Except Failure Value) (limit : Option Nat) :
    Moves r here (.fetching wake outcome limit) w
      (watchFetch r here wake outcome limit w).1 (watchFetch r here wake outcome limit w).2 := by
  unfold watchFetch
  split
  · rename_i due
    obtain ⟨f, same⟩ := endFetch_eq r here (outcome.mapError .reported)
      (w.log (.fetchEnded r.alias r.requestPath w.now))
    rw [same]
    exact .more (.turn _ _ f) (.last (.arrived due))
  · rename_i early
    split
    · rename_i late
      obtain ⟨f, same⟩ := endFetch_eq r here
        (.error (.timedOut (w.resolver.policy.fetchTimeout.getD 0))) w
      rw [same]
      exact .more (.turn _ _ f) (.last (.timedOut (Nat.lt_of_not_le early) late))
    · exact .rest _ _

/-- What follows the start of a fetch. -/
theorem launch_moves (r : Reference) (here : Address) (p : Provider) (w : World) :
    ∃ f, Moves r here (underway (p.fetch w.trace r.requestPath) w)
      ((dispatch r (p.fetch w.trace r.requestPath) w).plan f)
      (launch p r here (w.update Resolver.takePermit)).1
      (launch p r here (w.update Resolver.takePermit)).2 := by
  obtain ⟨f, same⟩ := begin_eq here (p.fetch w.trace r.requestPath)
    ((w.update Resolver.takePermit).log (.fetchStarted r.alias r.requestPath w.now))
  refine ⟨f, ?_⟩
  simp only [launch, World.update_trace, World.update_now, same]
  split
  · rename_i atOnce
    obtain ⟨g, ended⟩ := endFetch_eq r here
      ((p.fetch w.trace r.requestPath).outcome.mapError .reported)
      ((dispatch r (p.fetch w.trace r.requestPath) w).plan f)
    have due : w.now + (p.fetch w.trace r.requestPath).delay ≤ w.now := by omega
    change Moves r here _ _ (endFetch r here _ ((dispatch r _ w).plan f)).1
      (endFetch r here _ ((dispatch r _ w).plan f)).2
    rw [ended]
    exact .more (.turn _ _ g) (.last (.fetched due))
  · exact watchFetch_moves _ _ _

/-- In front of the line for an outcome: queue for a permit, or fetch. -/
theorem acquire_moves (first : w.resolver.lines.isFirst r.key here)
    (uncached : Assoc.get? w.resolver.cache r.key = none) :
    Moves r here (.awaitingOutcome p) w (acquire p r here w).1 (acquire p r here w).2 := by
  unfold acquire
  split
  · rename_i i interrupted
    exact stop_moves (.awaitingOutcome p) interrupted
  · rename_i live
    split
    · rename_i spare
      obtain ⟨f, moves⟩ := launch_moves r here p w
      exact .more (.launch first uncached spare live) (.more (.turn _ _ f) moves)
    · rename_i busy
      exact .last (.enqueue first uncached (by simpa using busy))

/-- A reference with a provider takes the outcome that is kept, or gets in line for it. -/
theorem share_moves (provides : w.registry.Provides r.alias p) :
    Moves r here .fresh w (share p r here w).1 (share p r here w).2 := by
  unfold share
  split
  · rename_i o cached
    exact .last (.remember cached)
  · rename_i uncached
    refine .more (.seekOutcome provides uncached) ?_
    dsimp only
    split
    · rename_i first
      exact acquire_moves first uncached
    · exact .rest _ _

/-- A reference that stands in line for an outcome looks for it again, once it is there or nobody
is in front. -/
theorem share_waiting_moves
    (ready : Assoc.contains w.resolver.cache r.key ∨ w.resolver.lines.isFirst r.key here) :
    Moves r here (.awaitingOutcome p) w (share p r here w).1 (share p r here w).2 := by
  unfold share
  split
  · rename_i o cached
    have present : Assoc.contains w.resolver.cache r.key = true := by
      simp [Assoc.contains, cached]
    exact .more (.outcomeFetched present) (.last (.remember cached))
  · rename_i uncached
    have first : w.resolver.lines.isFirst r.key here :=
      ready.resolve_left (by simp [Assoc.contains, uncached])
    have inLine : w.update (·.lineUp r.key here) = w := by
      simp only [World.update, Resolver.lineUp, Lines.join, if_pos (Lines.mem_of_isFirst first)]
    simp only [inLine, first, if_true]
    exact acquire_moves first uncached

/-- Once a provider has been built or refused, a reference goes on with it or is refused too. -/
theorem withProvider_moves {providerType : String} {config : Fields}
    {result : Except SetupError Provider}
    (built : Assoc.get? w.registry.bindings r.alias
      = some (.declared providerType config (some result))) :
    Moves r here .fresh w (withProvider r here result w).1 (withProvider r here result w).2 := by
  cases result with
  | ok p => exact share_moves (.inr ⟨providerType, config, built⟩)
  | error e => exact .last (.refused built)

/-- How the building of a provider ended is what its alias is bound to from then on. -/
theorem get?_setBuilt {g : Registry} {name providerType : String} {config : Fields}
    {before : Option (Except SetupError Provider)}
    (declared : Assoc.get? g.bindings name = some (.declared providerType config before))
    (result : Except SetupError Provider) :
    Assoc.get? (g.setBuilt name result).bindings name
      = some (.declared providerType config (some result)) := by
  simp [Registry.setBuilt, declared, Assoc.get?_insert]

/-- What follows the end of a building. -/
theorem endBuild_moves {providerType : String} {config : Fields}
    (unbuilt : Assoc.get? w.registry.bindings r.alias = some (.declared providerType config none))
    (result : Except SetupError Provider) :
    Moves r here .fresh (w.updateRegistry (·.setBuilt r.alias result))
      (endBuild r here result w).1 (endBuild r here result w).2 :=
  .more (.turn _ _ (·.wakeAll ((w.registry.lines.leave r.alias here).members r.alias)))
    (withProvider_moves (get?_setBuilt unbuilt result))

/-- In front of the line for a provider: it is built, or its type is unknown. -/
theorem build_moves {providerType : String} {config : Fields}
    (unbuilt : Assoc.get? w.registry.bindings r.alias = some (.declared providerType config none))
    (first : w.registry.lines.isFirst r.alias here) (live : w.interruption? = none) :
    Moves r here .awaitingProvider w (build r here providerType config w).1
      (build r here providerType config w).2 := by
  unfold build
  split
  · rename_i unknown
    exact .more (.unknownType unbuilt first unknown) (endBuild_moves unbuilt _)
  · rename_i t known
    obtain ⟨f, same⟩ := begin_eq here (t.init w.trace r.alias config)
      (w.log (.initStarted r.alias config w.now))
    refine .more (.build unbuilt first live known) ?_
    dsimp only
    rw [same]
    refine .more (.turn _ _ f) ?_
    split
    · rename_i atOnce
      refine .more (.built (by simp [initiate, atOnce]) unbuilt) ?_
      exact endBuild_moves (w := (initiate r config (t.init w.trace r.alias config) w).plan f)
        unbuilt _
    · exact .rest _ _

/-- A reference looks for its provider: there is one, there is none, or it is yet to be built. -/
theorem provide_moves (live : w.interruption? = none) :
    Moves r here .fresh w (provide r here w).1 (provide r here w).2 := by
  unfold provide
  split
  · rename_i free
    exact .last (.unbound free)
  · rename_i p installed
    exact share_moves (.inl installed)
  · rename_i providerType config result built
    exact withProvider_moves built
  · rename_i providerType config unbuilt
    refine .more (.seekProvider unbuilt) ?_
    dsimp only
    split
    · rename_i first
      exact build_moves unbuilt first live
    · exact .rest _ _

/-- A reference that stands in line for a provider looks for it again, once it is built or nobody
is in front. -/
theorem provide_waiting_moves
    (ready : w.registry.isUnbuilt r.alias = false ∨ w.registry.lines.isFirst r.alias here)
    (live : w.interruption? = none) :
    Moves r here .awaitingProvider w (provide r here w).1 (provide r here w).2 := by
  by_cases built : w.registry.isUnbuilt r.alias = false
  · exact .more (.providerBuilt built) (provide_moves live)
  have first := ready.resolve_left built
  have inLine : w.updateRegistry (·.lineUp r.alias here) = w := by
    simp only [World.updateRegistry, Registry.lineUp, Lines.join,
      if_pos (Lines.mem_of_isFirst first)]
  obtain ⟨providerType, config, unbuilt⟩ :
      ∃ providerType config, Assoc.get? w.registry.bindings r.alias
        = some (.declared providerType config none) := by
    unfold Registry.isUnbuilt at built
    split at built
    · rename_i providerType config found
      exact ⟨providerType, config, found⟩
    · exact absurd rfl built
  simp only [provide, unbuilt, inLine, first, if_true]
  exact build_moves unbuilt first live

/-- A reference that has not begun takes the outcome that is kept, or looks for its provider. -/
theorem start_moves (live : w.interruption? = none) :
    Moves r here .fresh w (start r here w).1 (start r here w).2 := by
  unfold start
  split
  · rename_i o cached
    exact .last (.remember cached)
  · exact provide_moves live

/-- A site that builds a provider builds one that is not there yet. -/
def Sane (r : Reference) (w : World) : Stage → Prop
  | .building _ _ => w.registry.isUnbuilt r.alias = true
  | _ => True

/-- At every stage, whatever a site that can move does next is a run of moves. -/
theorem proceed_moves {stage : Stage} (sane : Sane r w stage)
    (ready : isReady r here w stage = true)
    (live : (if stage.isWatchful then w.interruption? else none) = none) :
    Moves r here stage w (proceed r here w stage).1 (proceed r here w stage).2 := by
  have idle : (stage.isWatchful && w.interruption?.isSome) = false := by
    cases h : stage.isWatchful <;> simp_all
  simp only [isReady, idle, Bool.false_or] at ready
  cases stage with
  | fresh => exact start_moves live
  | awaitingProvider => exact provide_waiting_moves (by simpa using ready) live
  | building wake outcome =>
    obtain ⟨providerType, config, unbuilt⟩ :
        ∃ providerType config, Assoc.get? w.registry.bindings r.alias
          = some (.declared providerType config none) := by
      simp only [Sane, Registry.isUnbuilt] at sane
      split at sane
      · rename_i providerType config found
        exact ⟨providerType, config, found⟩
      · cases sane
    exact .more (.built (by simpa using ready) unbuilt) (endBuild_moves unbuilt _)
  | awaitingOutcome p => exact share_waiting_moves (by simpa using ready)
  | queued p =>
    obtain ⟨f, moves⟩ := launch_moves r here p (w.update (·.leaveQueue here))
    exact .more (.launchQueued ready live) (.more (.turn _ _ f) moves)
  | fetching wake outcome limit => exact watchFetch_moves wake outcome limit

/-- What happens at a site that can move. -/
def attempt (r : Reference) (here : Address) (stage : Stage) (w : World) : Progress × World :=
  match if stage.isWatchful then w.interruption? else none with
  | some i => (Site.interrupted i, release r here w stage)
  | none => proceed r here w stage

/-- So is what happens if it is interrupted first. -/
theorem attempt_moves {stage : Stage} (sane : Sane r w stage)
    (ready : isReady r here w stage = true) :
    Moves r here stage w (attempt r here stage w).1 (attempt r here stage w).2 := by
  unfold attempt
  split
  · rename_i i found
    apply stop_moves stage
    by_cases watchful : stage.isWatchful <;> simp_all
  · rename_i live
    exact proceed_moves sane ready live

/-- Watch out again while waiting for something that an interruption ends. -/
def rewatch (here : Address) (p : Progress) (w : World) : World :=
  match p with
  | .waiting next => if next.isWatchful then w.plan (·.watch here) else w
  | .settled _ => w

/-- A site that can move stops to watch out for as long as it does. -/
theorem poll_of_ready {stage : Stage} (ready : isReady r here w stage = true) :
    poll r here stage w = ((attempt r here stage (w.plan (·.unwatch here))).1,
      rewatch here (attempt r here stage (w.plan (·.unwatch here))).1
        (attempt r here stage (w.plan (·.unwatch here))).2) := by
  unfold poll attempt rewatch
  rw [if_pos ready]
  dsimp only
  cases (if stage.isWatchful then (w.plan (·.unwatch here)).interruption? else none) with
  | some i => rfl
  | none =>
    rcases proceed r here (w.plan (·.unwatch here)) stage with ⟨p, w'⟩
    cases p <;> rfl

/-- A look at a site that cannot move changes nothing. -/
theorem poll_of_not_ready {stage : Stage} (waits : isReady r here w stage = false) :
    poll r here stage w = (.waiting stage, w) := by
  simp [poll, waits]

/-- A look at a site is a run of moves. -/
theorem poll_moves {stage : Stage} (sane : Sane r w stage) :
    Moves r here stage w (poll r here stage w).1 (poll r here stage w).2 := by
  cases ready : isReady r here w stage with
  | false =>
    rw [poll_of_not_ready ready]
    exact .rest _ _
  | true =>
    have moves := attempt_moves (w := w.plan (·.unwatch here)) sane ready
    rw [poll_of_ready ready]
    refine .more (.turn _ _ (·.unwatch here)) ?_
    generalize attempt r here stage (w.plan (·.unwatch here)) = reached at moves ⊢
    obtain ⟨p, w'⟩ := reached
    cases p with
    | settled x => exact moves
    | waiting next =>
      unfold rewatch
      dsimp only
      split
      · exact moves.turn _
      · exact moves

end Looks

end Site

end LayeredConfig
