import Mathlib.Logic.Relation
import LayeredConfig.Proofs.Provider.Bindings

/-!
What goes on at a registry.

Many may use one registry at a time: declare and install providers, and ask for them on
behalf of references, each of which is looked at now and then, may be interrupted, and may
be dropped wherever it stands. `Traffic.Step` lists all that one of them may do next,
whoever that is, so a run of steps is any interleaving of any calls. What a step needs and
keeps is `Traffic.Sound`: the books balance, the bindings agree with the trace, and all
initialisations that have started are accounted for.

`Traffic.Sound.step` says that every step keeps it, and so `Traffic.Reaches.sound` that every run
does; `Traffic.Reaches.carries` says that no run takes back what an alias is bound to.
-/

namespace LayeredConfig

/-! ### Counting initialisations -/

/-- How many initialisations for an alias have started. -/
def Trace.inits (t : Trace) (name : String) : Nat :=
  t.countP fun e => e.startedAlias? = some name

/-- Whether the building of a declared provider is over. -/
def Registry.isBuilt (g : Registry) (name : String) : Bool :=
  match Assoc.get? g.bindings name with
  | some (.declared _ _ (some _)) => true
  | _ => false

/-- How many references are building the provider of an alias. -/
def buildingCount (S : Multiset Standing) (name : String) : Nat :=
  S.countP fun s => s.stage.isBuilding ∧ s.reference.alias = name

/-- Who stands where once one reference has come so far: itself, if it still waits, and the
others. -/
theorem Progress.forall_mem_among {P : Standing → Prop} {p : Progress} {here : Address}
    {r : Reference} {F : Multiset Standing} : (∀ s ∈ p.among here r F, P s) ↔
      (∀ s ∈ F, P s) ∧ ∀ stage, p = .waiting stage → P ⟨here, r, stage⟩ := by
  cases p with
  | settled result => simp [Progress.among]
  | waiting stage => simp [Progress.among, and_comm]

section Counting

variable {w w' : World} {here : Address} {r : Reference} {stage : Stage} {F : Multiset Standing}
  {name : String}

@[simp] theorem buildingCount_cons : buildingCount (⟨here, r, stage⟩ ::ₘ F) name
    = buildingCount F name + if stage.isBuilding ∧ r.alias = name then 1 else 0 := by
  unfold buildingCount
  rw [Multiset.countP_cons]

theorem buildingCount_among (p : Progress) : buildingCount (p.among here r F) name
    = buildingCount F name + if p.isBuilding ∧ r.alias = name then 1 else 0 := by
  cases p with
  | waiting stage => exact buildingCount_cons
  | settled result => simp [Progress.among, Progress.isBuilding]

/-- One event more. -/
theorem Trace.inits_cons (e : Event) (t : Trace) : Trace.inits (e :: t) name
    = Trace.inits t name + if e.startedAlias? = some name then 1 else 0 := by
  unfold Trace.inits
  rw [List.countP_cons]
  simp

theorem World.Calm.inits (calm : w.Calm w') (name : String) :
    Trace.inits w'.trace name = Trace.inits w.trace name := by
  obtain ⟨events, trace, quiet⟩ := calm.quiet
  have none : events.countP (fun e => e.startedAlias? = some name) = 0 :=
    List.countP_eq_zero.mpr fun e he => by simp [quiet e he]
  rw [trace, Trace.inits, List.countP_append, none, Nat.zero_add]
  rfl

theorem World.Calm.isBuilt (calm : w.Calm w') (name : String) :
    w'.registry.isBuilt name = w.registry.isBuilt name := by
  simp only [Registry.isBuilt, calm.bindings]

theorem World.Calm.isUnbuilt (calm : w.Calm w') (name : String) :
    w'.registry.isUnbuilt name = w.registry.isUnbuilt name := by
  simp only [Registry.isUnbuilt, calm.bindings]

theorem isBuilt_iff {g : Registry} : g.isBuilt name = true ↔ ∃ providerType config result,
    Assoc.get? g.bindings name = some (.declared providerType config (some result)) := by
  unfold Registry.isBuilt
  split
  · rename_i providerType config result found
    exact ⟨fun _ => ⟨providerType, config, result, found⟩, fun _ => rfl⟩
  · rename_i other
    constructor
    · intro h
      cases h
    · rintro ⟨providerType, config, result, found⟩
      exact absurd found (other providerType config result)

/-- What is still to be built is not built. -/
theorem isBuilt_of_isUnbuilt {g : Registry} (unbuilt : g.isUnbuilt name = true) :
    g.isBuilt name = false := by
  obtain ⟨providerType, config, found⟩ := isUnbuilt_iff.mp unbuilt
  simp [Registry.isBuilt, found]

theorem isBuilt_setBuilt {g : Registry} (unbuilt : g.isUnbuilt name = true)
    (result : Except SetupError Provider) (other : String) :
    (g.setBuilt name result).isBuilt other = (g.isBuilt other || decide (name = other)) := by
  obtain ⟨providerType, config, found⟩ := isUnbuilt_iff.mp unbuilt
  by_cases same : name = other
  · subst same
    simp [Registry.isBuilt, Site.get?_setBuilt found result]
  · simp [Registry.isBuilt, Registry.setBuilt, found, Assoc.get?_insert, same]

namespace World.Builds

variable {built : String}

theorem isUnbuilt (builds : w.Builds built w') : w.registry.isUnbuilt built = true := by
  obtain ⟨providerType, config, t, found, -⟩ := builds
  exact isUnbuilt_iff.mpr ⟨_, _, found⟩

theorem isBuilt (builds : w.Builds built w') (name : String) :
    w'.registry.isBuilt name = (w.registry.isBuilt name || decide (built = name)) := by
  have unbuilt := builds.isUnbuilt
  obtain ⟨providerType, config, t, found, known, calm⟩ := builds
  exact (calm.isBuilt name).trans (isBuilt_setBuilt unbuilt _ name)

theorem inits (builds : w.Builds built w') (name : String) : Trace.inits w'.trace name
    = Trace.inits w.trace name + if built = name then 1 else 0 := by
  obtain ⟨providerType, config, t, found, known, calm⟩ := builds
  rw [calm.inits]
  simp [Trace.inits_cons, Event.startedAlias?]

/-- One initialisation more, and one provider more that is built. -/
theorem inits_add_isBuilt (builds : w.Builds built w') (name : String) :
    Trace.inits w'.trace name + (w.registry.isBuilt name).toNat
      = Trace.inits w.trace name + (w'.registry.isBuilt name).toNat := by
  rw [builds.inits, builds.isBuilt]
  by_cases same : built = name
  · subst same
    simp [isBuilt_of_isUnbuilt builds.isUnbuilt]
  · simp [same]

end World.Builds

/-- Binding an alias builds nothing. -/
theorem isBuilt_bind {g : Registry} {b : Binding} (free : Assoc.get? g.bindings name = none)
    (new : ∀ providerType config result, b ≠ .declared providerType config (some result))
    (other : String) : (g.bind name b).isBuilt other = g.isBuilt other := by
  by_cases same : name = other
  · subst same
    have before : g.isBuilt name = false := by simp [Registry.isBuilt, free]
    rw [before, ← Bool.not_eq_true, isBuilt_iff]
    rintro ⟨providerType, config, result, bound⟩
    rw [Registry.get?_bind, if_pos rfl] at bound
    exact new _ _ _ (Option.some.inj bound)
  · simp [Registry.isBuilt, Registry.get?_bind, same]

end Counting

/-! ### Traffic -/

/-- All that goes on at a registry. -/
structure Traffic where
  world : World
  /-- The references on whose behalf providers are asked for, wherever they have come to. -/
  callers : Multiset Standing := 0
  /-- The aliases for which somebody gave up or dropped an initialisation before its end,
  once for each time. -/
  abandoned : List String := []

namespace Traffic

/-- Nothing is bound, and nobody asks for anything. -/
def opening (types : Assoc ProviderType) (policy : Policy) : Traffic where
  world := { registry := { types }, resolver := { policy } }

/-- Whether a look leaves an initialisation unfinished: who was building is gone, and the
provider is still to be built. -/
def Forsakes (r : Reference) (stage : Stage) (p : Progress) (w : World) : Bool :=
  stage.isBuilding && !p.isBuilding && w.registry.isUnbuilt r.alias

theorem forsakes_of_idle {r : Reference} {stage : Stage} (idle : stage.isBuilding = false)
    (p : Progress) (w : World) : Forsakes r stage p w = false := by
  simp [Forsakes, idle]

/-- Change the registry. -/
def withRegistry (t : Traffic) (f : Registry → Registry) : Traffic :=
  { t with world := t.world.updateRegistry f }

/-- A declaration binds a free alias to a type that is known, or changes nothing. -/
theorem withRegistry_register (t : Traffic) (name providerType : String) (config : Fields) :
    (Assoc.get? t.world.registry.bindings name = none ∧
      (∃ type, Assoc.get? t.world.registry.types providerType = some type) ∧
      (t.withRegistry fun g => (g.register name providerType config).2)
        = t.withRegistry (·.bind name (.declared providerType config none))) ∨
    (t.withRegistry fun g => (g.register name providerType config).2) = t := by
  rcases Registry.register_cases t.world.registry name providerType config with
    ⟨type, known, free, same⟩ | ⟨-, -, same⟩
  · exact .inl ⟨free, ⟨type, known⟩, by simp only [withRegistry, World.updateRegistry, same]⟩
  · exact .inr (by simp only [withRegistry, World.updateRegistry, same])

/-- An installation binds a free alias, or changes nothing. -/
theorem withRegistry_insert (t : Traffic) (name : String) (p : Provider) :
    (Assoc.get? t.world.registry.bindings name = none ∧
      (t.withRegistry fun g => (g.insert name p).2)
        = t.withRegistry (·.bind name (.installed p))) ∨
    (t.withRegistry fun g => (g.insert name p).2) = t := by
  rcases Registry.insert_cases t.world.registry name p with ⟨free, same⟩ | ⟨-, same⟩
  · exact .inl ⟨free, by simp only [withRegistry, World.updateRegistry, same]⟩
  · exact .inr (by simp only [withRegistry, World.updateRegistry, same])

/-- A reference that stands beside others is looked at, and goes as far as it can. -/
def look (t : Traffic) (here : Address) (r : Reference) (stage : Stage) (F : Multiset Standing) :
    Traffic :=
  let (p, w) := Site.poll r here stage t.world
  { world := w
    callers := p.among here r F
    abandoned := if Forsakes r stage p w then r.alias :: t.abandoned else t.abandoned }

/-- A reference that stands beside others is dropped. -/
def drop (t : Traffic) (here : Address) (r : Reference) (stage : Stage) (F : Multiset Standing) :
    Traffic where
  world := Site.release r here t.world stage
  callers := F
  abandoned := if stage.isBuilding then r.alias :: t.abandoned else t.abandoned

/-- What happens next at a registry. -/
inductive Step : Traffic → Traffic → Prop where
  | register (t : Traffic) (name providerType : String) (config : Fields) :
      Step t (t.withRegistry fun g => (g.register name providerType config).2)
  | install (t : Traffic) (name : String) (p : Provider) :
      Step t (t.withRegistry fun g => (g.insert name p).2)
  /-- Somebody new asks for the provider of a reference. -/
  | call (t : Traffic) (here : Address) (r : Reference)
      (free : ∀ s ∈ t.callers, s.address ≠ here) :
      Step t { t with callers := ⟨here, r, .fresh⟩ ::ₘ t.callers }
  | look (t : Traffic) {here : Address} {r : Reference} {stage : Stage} {F : Multiset Standing}
      (there : t.callers = ⟨here, r, stage⟩ ::ₘ F) : Step t (t.look here r stage F)
  | drop (t : Traffic) {here : Address} {r : Reference} {stage : Stage} {F : Multiset Standing}
      (there : t.callers = ⟨here, r, stage⟩ ::ₘ F) : Step t (t.drop here r stage F)
  /-- A provider is asked for, and awaited, outside of all runs. Where somebody stands in line
  for it, one has to wait for that, as callers do. -/
  | obtain (t : Traffic) (name : String) (nobody : t.world.registry.lines.first? name = none) :
      Step t { t with world := (t.world.obtainProvider name).2 }
  /-- A provider is asked for data, past the resolver. -/
  | ask (t : Traffic) (p : Provider) (name : String) (path : List String) :
      Step t { t with world := (t.world.fetch p name path).2 }
  /-- Some are woken, or put off. -/
  | turn (t : Traffic) (f : Agenda → Agenda) : Step t { t with world := t.world.plan f }
  /-- Time passes. -/
  | pass (t : Traffic) (now : Nat) (later : t.world.now ≤ now) :
      Step t { t with world := { t.world with now } }
  /-- Missing data is noted. -/
  | warn (t : Traffic) (e : ResolveError) :
      Step t { t with world := t.world.log (.downgraded e t.world.now) }
  /-- Whoever is looked at next has another context. -/
  | renew (t : Traffic) (context : Context) :
      Step t { t with world := { t.world with context } }

/-- Any number of steps. -/
def Reaches : Traffic → Traffic → Prop := Relation.ReflTransGen Step

/-- How many initialisations for an alias are going on. -/
def building (t : Traffic) (name : String) : Nat := buildingCount t.callers name

end Traffic

/-! ### Lines when the registry is used -/

namespace Lines.Serves

variable {l : Lines} {name : String} {isOpen isOpen' : String → Bool} {seats : Multiset Seat}

/-- A line may open for something that nobody has asked for yet. -/
theorem openUp (serves : l.Serves isOpen seats) (nobody : ∀ s ∈ seats, s.name ≠ name)
    (others : ∀ n, n ≠ name → isOpen' n = isOpen n) : l.Serves isOpen' seats where
  mem_iff n a := by
    rw [serves.mem_iff]
    constructor
    · rintro ⟨up, s, hs, rfl, rfl⟩
      exact ⟨by rwa [others _ (nobody s hs)], s, hs, rfl, rfl⟩
    · rintro ⟨up, s, hs, rfl, rfl⟩
      exact ⟨by rwa [← others _ (nobody s hs)], s, hs, rfl, rfl⟩
  nodup := serves.nodup
  atWork s hs busy := by
    rw [others _ (nobody s hs)]
    exact serves.atWork s hs busy

/-- A line closes in which nobody stands. -/
theorem close (serves : l.Serves isOpen seats) (nobody : l.first? name = none)
    (closes : ∀ n, isOpen' n = (isOpen n && decide (n ≠ name))) :
    (l.dissolve name).Serves isOpen' seats := by
  have empty : ∀ a, (name, a) ∉ l := by
    intro a there
    obtain ⟨b, first⟩ := exists_isFirst there
    rw [isFirst_iff] at first
    rw [first?, first] at nobody
    cases nobody
  constructor
  · intro n a
    rw [mem_dissolve, serves.mem_iff, closes]
    simp only [Bool.and_eq_true, decide_eq_true_eq]
    tauto
  · exact serves.nodup.filter _
  · intro s hs busy
    obtain ⟨up, first⟩ := serves.atWork s hs busy
    have apart : s.name ≠ name := by
      rintro rfl
      exact empty _ (mem_of_isFirst first)
    exact ⟨by simp [closes, up, apart], isFirst_dissolve first apart⟩

end Lines.Serves

/-! ### What the callers hold -/

/-- What is true of a reference that takes part in the building of its provider, or has been
given it: the provider is declared; what the reference says will come of the building is
what the call of an initialisation comes to; and the provider at hand is the one that the
alias stands for. -/
def Standing.Attested (w : World) (s : Standing) : Prop :=
  match s.stage with
  | .awaitingProvider => ∃ config, w.registry.Declares s.reference.alias config
  | .building _ outcome => w.HasInit s.reference.alias outcome
  | .awaitingOutcome p => w.registry.Provides s.reference.alias p
  | .queued p => w.registry.Provides s.reference.alias p
  | _ => True

section Attested

variable {w w' : World} {s : Standing} {here : Address} {r : Reference} {stage : Stage}
  {F : Multiset Standing} {p : Progress}

theorem Standing.Attested.carry (attested : s.Attested w) (carries : w.Carries w') :
    s.Attested w' := by
  obtain ⟨here, r, stage⟩ := s
  cases stage with
  | awaitingProvider =>
    obtain ⟨config, declared⟩ := attested
    exact ⟨config, carries.declares declared⟩
  | building wake outcome => exact World.HasInit.carry attested carries
  | awaitingOutcome p => exact carries.provides attested
  | queued p => exact carries.provides attested
  | _ => trivial

/-- Who stands in line for a provider stands there for a declared one. -/
theorem Standing.Attested.declares (attested : s.Attested w) {seat : Seat}
    (seated : s.builderSeat = some seat) :
    ∃ config, w.registry.Declares seat.name config := by
  obtain ⟨here, r, stage⟩ := s
  cases stage with
  | awaitingProvider =>
    cases seated
    exact attested
  | building wake outcome =>
    cases seated
    exact World.HasInit.declares attested
  | _ => cases seated

namespace Site

theorem Move.carries (move : Move r here stage w p w') : w.Carries w' := by
  cases move with
  | stop => cases stage <;> exact .of_calm ⟨rfl, rfl, .refl w _⟩
  | seekProvider => exact .of_calm ⟨rfl, rfl, .refl w _⟩
  | build => exact (World.Carries.log w _).trans (.of_calm (.of_same rfl rfl))
  | unknownType unbuilt => exact .setBuilt (isUnbuilt_iff.mpr ⟨_, _, unbuilt⟩) _
  | built due unbuilt => exact .setBuilt (isUnbuilt_iff.mpr ⟨_, _, unbuilt⟩) _
  | launch => exact (World.Carries.log _ _).trans (.of_calm (.of_same rfl rfl))
  | launchQueued => exact (World.Carries.log _ _).trans (.of_calm (.of_same rfl rfl))
  | arrived => exact (World.Carries.log w _).trans (.of_calm (.of_same rfl rfl))
  | _ => exact .of_calm (.of_same rfl rfl)

/-- A reference only takes part in building what is declared, and only has in hand what it
was given. -/
theorem Move.attested (move : Move r here stage w p w')
    (before : (Standing.mk here r stage).Attested w) :
    ∀ stage', p = .waiting stage' → (Standing.mk here r stage').Attested w' := by
  have carries := move.carries
  rintro stage' same
  cases move <;> cases same
  case turn => exact before.carry carries
  case seekProvider unbuilt => exact ⟨_, carries.declares ⟨_, _, unbuilt⟩⟩
  case build unbuilt first live known =>
    exact (World.hasInit_log unbuilt known _).carry (.of_calm (.of_same rfl rfl))
  case seekOutcome provides uncached => exact carries.provides provides
  case enqueue first uncached busy => exact carries.provides before
  all_goals trivial

theorem Moves.carries (moves : Moves r here stage w p w') : w.Carries w' := by
  induction moves with
  | rest => exact .refl _
  | last move => exact move.carries
  | more move _ ih => exact move.carries.trans ih

theorem Moves.attested (moves : Moves r here stage w p w')
    (before : (Standing.mk here r stage).Attested w) :
    ∀ stage', p = .waiting stage' → (Standing.mk here r stage').Attested w' := by
  induction moves with
  | rest =>
    rintro _ ⟨⟩
    exact before
  | last move => exact move.attested before
  | more move _ ih => exact ih (move.attested before _ rfl)

end Site

end Attested

/-! ### What a look keeps -/

namespace Site.Look

variable {w w' : World} {here : Address} {r : Reference} {stage : Stage} {F : Multiset Standing}
  {p : Progress}

/-- Who builds a provider in agreement with the books builds one that is not there yet. -/
theorem unbuilt_of_building (balanced : Balanced (⟨here, r, stage⟩ ::ₘ F) w)
    (building : stage.isBuilding = true) : w.registry.isUnbuilt r.alias = true := by
  cases stage <;> cases building
  exact (balanced.builder_atWork rfl).1

/-- Where an initialisation starts, the provider was to be built, the reference did not do so
before, and it either does now or is done. -/
theorem starts (look : Look r stage w p w') {name : String}
    (changed : Trace.inits w'.trace name ≠ Trace.inits w.trace name) :
    r.alias = name ∧ w.registry.isUnbuilt name = true ∧ stage.isBuilding = false ∧
      Trace.inits w'.trace name = Trace.inits w.trace name + 1 ∧
      (p.isBuilding = true ∨ w'.registry.isBuilt name = true) := by
  cases look with
  | aside calm => exact absurd (calm.inits name) changed
  | giveUp calm => exact absurd (calm.inits name) changed
  | start idle unbuilt known calm =>
    have counted := calm.inits name
    rw [World.log_trace, Trace.inits_cons] at counted
    by_cases same : r.alias = name
    · subst same
      refine ⟨rfl, isUnbuilt_iff.mpr ⟨_, _, unbuilt⟩, idle, ?_, .inl rfl⟩
      simpa [Event.startedAlias?] using counted
    · exact absurd (by simpa [Event.startedAlias?, same] using counted) changed
  | startAndFinish idle builds =>
    have counted := builds.inits name
    have ended := builds.isBuilt name
    by_cases same : r.alias = name
    · subst same
      exact ⟨rfl, builds.isUnbuilt, idle, by simpa using counted, .inr (by simpa using ended)⟩
    · exact absurd (by simpa [same] using counted) changed
  | finish building calm => exact absurd (calm.inits name) changed

variable (look : Look r stage w p w') (balanced : Balanced (⟨here, r, stage⟩ ::ₘ F) w)

include look balanced

theorem truthful (attested : (Standing.mk here r stage).Attested w) (truthful : w.Truthful) :
    w'.Truthful := by
  cases look with
  | aside calm => exact truthful.calm calm
  | giveUp calm => exact truthful.calm calm
  | start idle unbuilt known calm =>
    exact (truthful.logInit ⟨_, _, unbuilt⟩ _).calm calm
  | startAndFinish idle builds => exact truthful.build builds
  | finish building calm =>
    subst building
    exact (truthful.setBuilt (balanced.builder_atWork rfl).1 attested).calm calm

/-- Initialisations that have started are accounted for: they go on, were given up, or
have come to their end. -/
theorem ledger (name : String) :
    Trace.inits w'.trace name + (if stage.isBuilding ∧ r.alias = name then 1 else 0)
        + (w.registry.isBuilt name).toNat
      = Trace.inits w.trace name + (if p.isBuilding ∧ r.alias = name then 1 else 0)
        + (if Traffic.Forsakes r stage p w' ∧ r.alias = name then 1 else 0)
        + (w'.registry.isBuilt name).toNat := by
  cases look with
  | aside calm same =>
    have kept : Traffic.Forsakes r stage p w' = false := by simp [Traffic.Forsakes, same]
    simp [calm.inits, calm.isBuilt, kept, same]
  | giveUp calm building interrupted idle =>
    have unbuilt := unbuilt_of_building balanced building
    simp [calm.inits, calm.isBuilt, calm.isUnbuilt, Traffic.Forsakes, building, idle,
      unbuilt]
  | start idle unbuilt known calm =>
    have same : w'.registry.isBuilt name = w.registry.isBuilt name := calm.isBuilt name
    simp [calm.inits, same, Traffic.forsakes_of_idle idle, idle, Trace.inits_cons,
      Event.startedAlias?]
  | startAndFinish idle builds gone =>
    have counted := builds.inits_add_isBuilt name
    simp [idle, gone, Traffic.forsakes_of_idle idle, counted]
  | finish building calm gone =>
    subst building
    have unbuilt := (balanced.builder_atWork rfl).1
    have ended : w'.registry.isBuilt name = (w.registry.isBuilt name || decide (r.alias = name)) :=
      (calm.isBuilt name).trans (isBuilt_setBuilt unbuilt _ name)
    have done : w'.registry.isUnbuilt r.alias = false := by
      rw [calm.isUnbuilt, World.updateRegistry_registry, isUnbuilt_setBuilt unbuilt]
      simp
    have started := calm.inits name
    simp only [World.updateRegistry_trace] at started
    simp only [started, ended, gone, Traffic.Forsakes, done]
    by_cases same : r.alias = name
    · subst same
      simp [isBuilt_of_isUnbuilt unbuilt, Stage.isBuilding]
    · simp [same]

end Site.Look

/-! ### What a step keeps -/

namespace Balanced

variable {S F : Multiset Standing} {w w' : World} {here : Address} {r : Reference} {stage : Stage}
  {p : Progress}

theorem moves (balanced : Balanced (⟨here, r, stage⟩ ::ₘ F) w)
    (moves : Site.Moves r here stage w p w') : Balanced (p.among here r F) w' := by
  induction moves with
  | rest => exact balanced
  | last move => exact balanced.move move
  | more move _ ih => exact ih (balanced.move move)

theorem poll_moves (balanced : Balanced (⟨here, r, stage⟩ ::ₘ F) w) :
    Site.Moves r here stage w (Site.poll r here stage w).1 (Site.poll r here stage w).2 := by
  apply Site.poll_moves
  cases stage <;> first | trivial | exact (balanced.builder_atWork rfl).1

theorem release (balanced : Balanced (⟨here, r, stage⟩ ::ₘ F) w) :
    Balanced F (Site.release r here w stage) := by
  obtain ⟨f, same⟩ := Site.release_eq r here w stage
  rw [same]
  exact (balanced.plan f).surrender

/-- At most one reference builds a provider. -/
theorem buildingCount_le_one (balanced : Balanced S w) (name : String) :
    buildingCount S name ≤ 1 := by
  by_cases some : ∃ s ∈ S, s.stage.isBuilding ∧ s.reference.alias = name
  · obtain ⟨⟨here, r, stage⟩, hs, building, same⟩ := some
    obtain ⟨F, rfl⟩ := Multiset.exists_cons_of_mem hs
    have others : buildingCount F name = 0 := by
      refine Multiset.countP_eq_zero.mpr ?_
      rintro s hs' ⟨busy, same'⟩
      have there := balanced.first_of_building (Multiset.mem_cons_of_mem hs') busy
      have here' := balanced.first_of_building (Multiset.mem_cons_self _ _) building
      rw [same', ← same] at there
      exact balanced.address_ne hs' (Lines.isFirst_unique there here')
    rw [buildingCount_cons, others]
    split <;> omega
  · have none : buildingCount S name = 0 :=
      Multiset.countP_eq_zero.mpr fun s hs busy => some ⟨s, hs, busy⟩
    omega

/-- Nobody builds a provider but one that is to be built. -/
theorem buildingCount_eq_zero (balanced : Balanced S w) {name : String}
    (built : w.registry.isUnbuilt name = false) : buildingCount S name = 0 := by
  refine Multiset.countP_eq_zero.mpr ?_
  rintro ⟨here, r, stage⟩ hs ⟨building, same⟩
  obtain ⟨F, rfl⟩ := Multiset.exists_cons_of_mem hs
  have unbuilt := Site.Look.unbuilt_of_building balanced building
  rw [same, built] at unbuilt
  cases unbuilt

/-- The books say nothing about clock, context, turns and trace. -/
theorem outside (balanced : Balanced S w) (registry : w'.registry = w.registry)
    (resolver : w'.resolver = w.resolver) : Balanced S w' :=
  ⟨balanced.apart, by rw [registry]; exact balanced.builders,
    by rw [resolver]; exact balanced.outcomes, by rw [resolver]; exact balanced.queue,
    by rw [resolver]; exact balanced.permits⟩

/-- The registry changes, and its lines with it. -/
theorem rebind (balanced : Balanced S w) {f : Registry → Registry}
    (builders : (f w.registry).lines.Serves (f w.registry).isUnbuilt
      (S.filterMap Standing.builderSeat)) : Balanced S (w.updateRegistry f) :=
  ⟨balanced.apart, builders, balanced.outcomes, balanced.queue, balanced.permits⟩

/-- Somebody comes who holds nothing yet. -/
theorem arrive (balanced : Balanced S w) (free : ∀ s ∈ S, s.address ≠ here) (r : Reference) :
    Balanced (⟨here, r, .fresh⟩ ::ₘ S) w where
  apart := by
    rw [Multiset.map_cons, Multiset.nodup_cons]
    refine ⟨?_, balanced.apart⟩
    intro there
    obtain ⟨s, hs, same⟩ := Multiset.mem_map.mp there
    exact free s hs same
  builders := by
    rw [Multiset.filterMap_cons_none (f := Standing.builderSeat) _ _ rfl]
    exact balanced.builders
  outcomes := by
    rw [Multiset.filterMap_cons_none (f := Standing.outcomeSeat) _ _ rfl]
    exact balanced.outcomes
  queue := by simpa [Stage.isQueued] using balanced.queue
  permits := by simpa [Stage.isFetching] using balanced.permits

end Balanced

namespace Traffic

/-- What every step needs and keeps. -/
structure Sound (t : Traffic) : Prop where
  balanced : Balanced t.callers t.world
  truthful : t.world.Truthful
  attested : ∀ s ∈ t.callers, s.Attested t.world
  /-- Every initialisation that has started was given up, is going on, or has ended. -/
  ledger : ∀ name, t.world.trace.inits name
    = t.abandoned.count name + t.building name + (t.world.registry.isBuilt name).toNat

/-- How often an alias is on the list once another one may have come to it. -/
theorem count_forsaken (forsaken : Bool) (abandoned : List String) (left name : String) :
    (if forsaken then left :: abandoned else abandoned).count name
      = abandoned.count name + if forsaken ∧ left = name then 1 else 0 := by
  cases forsaken with
  | false => simp
  | true => simp [List.count_cons]

theorem sound_opening (types : Assoc ProviderType) (policy : Policy) :
    (opening types policy).Sound where
  balanced := balanced_zero_iff.mpr ⟨rfl, rfl, rfl, rfl⟩
  truthful := ⟨by rintro _ _ _ _ ⟨⟩, by rintro _ _ _ ⟨⟩, by rintro _ _ _ _ ⟨⟩⟩
  attested _ hs := absurd hs (Multiset.notMem_zero _)
  ledger _ := rfl

namespace Sound

variable {t t' : Traffic}

/-- Steps of others, which leave providers and callers alone. -/
theorem outside (sound : t.Sound) {w : World} (calm : t.world.Calm w)
    (balanced : Balanced t.callers w) : Sound { t with world := w } where
  balanced := balanced
  truthful := sound.truthful.calm calm
  attested s hs := (sound.attested s hs).carry (.of_calm calm)
  ledger name := by
    rw [calm.inits, calm.isBuilt]
    exact sound.ledger name

/-- Nobody stands in line for a provider that is not bound. -/
theorem nobody (sound : t.Sound) {name : String}
    (free : Assoc.get? t.world.registry.bindings name = none) :
    ∀ seat ∈ t.callers.filterMap Standing.builderSeat, seat.name ≠ name := by
  rintro seat hseat rfl
  obtain ⟨s, hs, found⟩ := (Multiset.mem_filterMap _ _).mp hseat
  obtain ⟨config, providerType, built, bound⟩ := (sound.attested s hs).declares found
  rw [free] at bound
  cases bound

/-- A free alias is bound, to something that has yet to be built if it is declared. -/
theorem bind (sound : t.Sound) {name : String} {b : Binding}
    (free : Assoc.get? t.world.registry.bindings name = none)
    (new : ∀ providerType config result, b ≠ .declared providerType config (some result))
    (truthful : World.Truthful (t.world.updateRegistry (·.bind name b))) :
    Sound (t.withRegistry (·.bind name b)) where
  balanced := by
    have others : ∀ other, other ≠ name →
        (t.world.registry.bind name b).isUnbuilt other = t.world.registry.isUnbuilt other := by
      intro other different
      simp only [Registry.isUnbuilt, Registry.get?_bind, if_neg (Ne.symm different)]
    exact sound.balanced.rebind (f := (·.bind name b))
      (sound.balanced.builders.openUp (sound.nobody free) others)
  truthful := truthful
  attested s hs := (sound.attested s hs).carry (.bind _ free b)
  ledger other := by
    have same : (t.withRegistry (·.bind name b)).world.registry.isBuilt other
        = t.world.registry.isBuilt other := isBuilt_bind free new other
    rw [same]
    exact sound.ledger other

/-- A provider is asked for outside a run, while nobody stands in line for it. -/
theorem obtain (sound : t.Sound) {name : String}
    (nobody : t.world.registry.lines.first? name = none) :
    Sound { t with world := (t.world.obtainProvider name).2 } := by
  rcases World.obtainProvider_cases sound.truthful name with
    ⟨-, same⟩ | ⟨unbuilt, builds, ⟨result, -, registry⟩, resolver⟩
  · rwa [same]
  have balanced : Balanced t.callers (t.world.updateRegistry (·.setBuilt name result)) := by
    apply sound.balanced.rebind (f := (·.setBuilt name result))
    rw [setBuilt_lines unbuilt]
    exact sound.balanced.builders.close nobody (isUnbuilt_setBuilt unbuilt result)
  refine ⟨balanced.outside registry resolver, sound.truthful.build builds,
    fun s hs => (sound.attested s hs).carry (.of_builds builds), ?_⟩
  intro other
  have before := sound.ledger other
  have counted := builds.inits_add_isBuilt other
  simp only [building] at before ⊢
  omega

theorem step (sound : t.Sound) (step : t.Step t') : t'.Sound := by
  cases step with
  | register name providerType config =>
    rcases t.withRegistry_register name providerType config with
      ⟨free, ⟨type, known⟩, same⟩ | same <;> rw [same]
    · exact sound.bind free (by simp) (sound.truthful.declare free known config)
    · exact sound
  | install name p =>
    rcases t.withRegistry_insert name p with ⟨free, same⟩ | same <;> rw [same]
    · exact sound.bind free (by simp) (sound.truthful.install free p)
    · exact sound
  | call here r free =>
    refine ⟨sound.balanced.arrive free r, sound.truthful, ?_, ?_⟩
    · exact Multiset.forall_mem_cons.mpr ⟨trivial, sound.attested⟩
    · intro name
      simpa [building, Stage.isBuilding] using sound.ledger name
  | @look here r stage F there =>
    obtain ⟨w, S, abandoned⟩ := t
    obtain rfl : S = ⟨here, r, stage⟩ ::ₘ F := there
    -- What the look does to providers settles trace and ledger; the moves that it is made of
    -- settle what the reference itself holds.
    have seen := Site.poll_look (sound.truthful.known r.alias) here stage
    have moves := sound.balanced.poll_moves
    have self := sound.attested _ (Multiset.mem_cons_self _ _)
    refine ⟨sound.balanced.moves moves, seen.truthful sound.balanced self sound.truthful, ?_, ?_⟩
    · refine Progress.forall_mem_among.mpr ⟨?_, fun stage' same => moves.attested self stage' same⟩
      exact fun s hs => (sound.attested s (Multiset.mem_cons_of_mem hs)).carry moves.carries
    · intro name
      have before := sound.ledger name
      have moved := seen.ledger sound.balanced name
      simp only [building, buildingCount_cons] at before
      simp only [look, building, buildingCount_among, count_forsaken]
      dsimp only at before moved ⊢
      omega
  | @drop here r stage F there =>
    obtain ⟨w, S, abandoned⟩ := t
    obtain rfl : S = ⟨here, r, stage⟩ ::ₘ F := there
    have calm := Site.release_calm r here w stage
    refine ⟨sound.balanced.release, sound.truthful.calm calm, ?_, ?_⟩
    · intro s hs
      exact (sound.attested s (Multiset.mem_cons_of_mem hs)).carry (.of_calm calm)
    · intro name
      have before := sound.ledger name
      simp only [building, buildingCount_cons] at before
      simp only [drop, calm.inits, calm.isBuilt, building, count_forsaken]
      omega
  | obtain name free => exact sound.obtain free
  | ask p name path =>
    obtain ⟨calm, registry, resolver⟩ := World.fetch_calm t.world p name path
    exact sound.outside calm (sound.balanced.outside registry resolver)
  | turn f => exact sound.outside (.of_same rfl rfl) (sound.balanced.plan f)
  | pass now later => exact sound.outside (.of_same rfl rfl) (sound.balanced.outside rfl rfl)
  | warn e => exact sound.outside (.log _ rfl) (sound.balanced.log _)
  | renew context => exact sound.outside (.of_same rfl rfl) (sound.balanced.outside rfl rfl)

end Sound

/-- No step takes back what is bound, or what has happened. -/
theorem Step.carries {t t' : Traffic} (step : t.Step t') (sound : t.Sound) :
    t.world.Carries t'.world := by
  cases step with
  | register name providerType config =>
    rcases t.withRegistry_register name providerType config with
      ⟨free, -, same⟩ | same <;> rw [same]
    · exact .bind _ free _
    · exact .refl _
  | install name p =>
    rcases t.withRegistry_insert name p with ⟨free, same⟩ | same <;> rw [same]
    · exact .bind _ free _
    · exact .refl _
  | call here r free => exact .refl _
  | @look here r stage F there =>
    have balanced : Balanced (⟨here, r, stage⟩ ::ₘ F) t.world := there ▸ sound.balanced
    exact balanced.poll_moves.carries
  | @drop here r stage F there => exact .of_calm (Site.release_calm r here t.world stage)
  | obtain name nobody =>
    rcases World.obtainProvider_cases sound.truthful name with ⟨-, same⟩ | ⟨-, builds, -⟩
    · rw [same]
      exact .refl _
    · exact .of_builds builds
  | ask p name path => exact .of_calm (World.fetch_calm t.world p name path).1
  | turn f => exact .of_calm (.of_same rfl rfl)
  | pass now later => exact .of_calm (.of_same rfl rfl)
  | warn e => exact .log _ _
  | renew context => exact .of_calm (.of_same rfl rfl)

namespace Reaches

variable {t t' : Traffic}

/-- What every step keeps, every run keeps. -/
theorem sound (reaches : t.Reaches t') (before : t.Sound) : t'.Sound := by
  induction reaches with
  | refl => exact before
  | tail _ step ih => exact ih.step step

theorem carries (reaches : t.Reaches t') (before : t.Sound) : t.world.Carries t'.world := by
  induction reaches with
  | refl => exact .refl _
  | tail reaches step ih =>
    have there : Sound _ := Reaches.sound reaches before
    exact ih.trans (step.carries there)

end Reaches

end Traffic

end LayeredConfig
