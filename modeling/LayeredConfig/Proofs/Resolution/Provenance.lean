import LayeredConfig.Proofs.Resolution.Start

/-!
Where outcomes come from.

A registry only changes in that declared providers are built (`Registry.Later`), so what
asking for an alias may come to is settled by the registry that a run began with
(`Registry.MayAnswer`). `Rooted` says that everything that references hold and that the
resolver keeps comes from there: an outcome under a key comes from a fetch for a
reference with that key, by a provider for the alias of that reference. Every move keeps this
(`Rooted.move`), so every run does (`Rooted.endures`).
-/

namespace LayeredConfig

/-! ### Answers of a registry -/

/-- What asking for the provider of an alias may come to. -/
inductive Registry.MayAnswer (g : Registry) (name : String) :
    Except SetupError Provider → Prop where
  | installed {p : Provider} (bound : Assoc.get? g.bindings name = some (.installed p)) :
      MayAnswer g name (.ok p)
  | built {providerType : String} {config : Fields} {result : Except SetupError Provider}
      (bound : Assoc.get? g.bindings name = some (.declared providerType config (some result))) :
      MayAnswer g name result
  | unknownType {providerType : String} {config : Fields}
      (bound : Assoc.get? g.bindings name = some (.declared providerType config none))
      (unknown : Assoc.get? g.types providerType = none) :
      MayAnswer g name (.error (.unknownType name providerType))
  | init {providerType : String} {config : Fields} {t : ProviderType}
      (bound : Assoc.get? g.bindings name = some (.declared providerType config none))
      (known : Assoc.get? g.types providerType = some t) (trace : Trace) :
      MayAnswer g name ((t.init trace name config).outcome.mapError (.init name))

theorem Registry.Provides.mayAnswer {g : Registry} {name : String} {p : Provider}
    (provides : g.Provides name p) : g.MayAnswer name (.ok p) := by
  rcases provides with installed | ⟨providerType, config, built⟩
  · exact .installed installed
  · exact .built built

/-- A registry some of whose declared providers have been built since. -/
structure Registry.Later (g g' : Registry) : Prop where
  types : g'.types = g.types
  bindings : ∀ name, Assoc.get? g'.bindings name = Assoc.get? g.bindings name ∨
    ∃ providerType config result,
      Assoc.get? g.bindings name = some (.declared providerType config none) ∧
      Assoc.get? g'.bindings name = some (.declared providerType config (some result)) ∧
      g.MayAnswer name result

namespace Registry.Later

variable {g g' : Registry} {name : String}

theorem refl (g : Registry) : g.Later g := ⟨rfl, fun _ => .inl rfl⟩

/-- No alias is bound or freed. -/
theorem get?_eq_none_iff (later : g.Later g') :
    Assoc.get? g'.bindings name = none ↔ Assoc.get? g.bindings name = none := by
  rcases later.bindings name with same | ⟨_, _, _, before, after, _⟩
  · rw [same]
  · simp [before, after]

/-- What is still to be built was to be built before. -/
theorem unbuilt (later : g.Later g') {providerType : String} {config : Fields}
    (bound : Assoc.get? g'.bindings name = some (.declared providerType config none)) :
    Assoc.get? g.bindings name = some (.declared providerType config none) := by
  rcases later.bindings name with same | ⟨_, _, _, _, after, _⟩
  · rw [← same, bound]
  · rw [after] at bound
    cases bound

/-- Nothing can be answered that could not be before. -/
theorem mayAnswer (later : g.Later g') {result : Except SetupError Provider}
    (answer : g'.MayAnswer name result) : g.MayAnswer name result := by
  cases answer with
  | installed bound =>
    rcases later.bindings name with same | ⟨_, _, _, _, after, _⟩
    · exact .installed (same ▸ bound)
    · rw [after] at bound
      cases bound
  | built bound =>
    rcases later.bindings name with same | ⟨_, _, _, _, after, answer⟩
    · exact .built (same ▸ bound)
    · rw [after] at bound
      cases bound
      exact answer
  | unknownType bound unknown => exact .unknownType (later.unbuilt bound) (later.types ▸ unknown)
  | init bound known trace => exact .init (later.unbuilt bound) (later.types ▸ known) trace

/-- The building of a provider is over. -/
theorem setBuilt (later : g.Later g') {result : Except SetupError Provider}
    {providerType : String} {config : Fields}
    (bound : Assoc.get? g'.bindings name = some (.declared providerType config none))
    (answer : g.MayAnswer name result) : g.Later (g'.setBuilt name result) := by
  constructor
  · simp [Registry.setBuilt, bound, later.types]
  · intro other
    by_cases same : name = other
    · subst same
      exact .inr ⟨providerType, config, result, later.unbuilt bound,
        Site.get?_setBuilt bound result, answer⟩
    · simpa [Registry.setBuilt, bound, Assoc.get?_insert, same] using later.bindings other

/-- Lines have no part in what is bound. -/
theorem updateLines (later : g.Later g') {g'' : Registry} (types : g''.types = g'.types)
    (bindings : g''.bindings = g'.bindings) : g.Later g'' :=
  ⟨types.trans later.types, by simpa [bindings] using later.bindings⟩

end Registry.Later

/-! ### Outcomes -/

/-- What a call comes to where it may take no longer than a limit. -/
def Call.verdict (limit : Option Nat) (call : Call Value) : Outcome :=
  match limit with
  | some limit =>
    if limit < call.delay then .error (.timedOut limit) else call.outcome.mapError .reported
  | none => call.outcome.mapError .reported

/-- Which outcomes a fetch for a reference may have. -/
def Registry.Produces (g : Registry) (limit : Option Nat) (r : Reference) (o : Outcome) : Prop :=
  ∃ p trace, g.MayAnswer r.alias (.ok p) ∧ o = (p.fetch trace r.requestPath).verdict limit

/-- What a reference holds at a stage comes from what the registry may answer. -/
def Stage.IsRooted (g : Registry) (limit : Option Nat) (now : Nat) (r : Reference) : Stage → Prop
  | .building _ outcome => g.MayAnswer r.alias (outcome.mapError (.init r.alias))
  | .awaitingOutcome p => g.MayAnswer r.alias (.ok p)
  | .queued p => g.MayAnswer r.alias (.ok p)
  | .fetching wake outcome until? => ∃ p trace start, g.MayAnswer r.alias (.ok p) ∧
      wake = start + (p.fetch trace r.requestPath).delay ∧
      outcome = (p.fetch trace r.requestPath).outcome ∧
      until? = limit.map (start + ·) ∧ ∀ x ∈ wake :: until?.toList, now ≤ x
  | _ => True

/-- Everything that references and resolver hold comes from a registry: `U` are the
references that the resolver is used for. -/
structure Rooted (g : Registry) (rules : Policy) (U : Reference → Prop) (S : Multiset Standing)
    (w : World) : Prop where
  policy : w.resolver.policy = rules
  registry : g.Later w.registry
  references : ∀ s ∈ S, U s.reference
  stages : ∀ s ∈ S, s.stage.IsRooted g rules.fetchTimeout w.now s.reference
  cache : ∀ key o, Assoc.get? w.resolver.cache key = some o →
    ∃ r, U r ∧ r.key = key ∧ g.Produces rules.fetchTimeout r o

/-- The outcome of a fetch that is over at a moment. -/
theorem Stage.IsRooted.produces {g : Registry} {limit : Option Nat} {now wake : Nat} {r : Reference}
    {outcome : Except Failure Value} {until? : Option Nat}
    (rooted : (Stage.fetching wake outcome until?).IsRooted g limit now r) (due : wake ≤ now) :
    g.Produces limit r (outcome.mapError .reported) := by
  obtain ⟨p, trace, start, answer, rfl, rfl, rfl, ahead⟩ := rooted
  refine ⟨p, trace, answer, ?_⟩
  cases limit with
  | none => rfl
  | some limit =>
    have notLate : now ≤ start + limit := ahead _ (by simp)
    rw [Call.verdict, if_neg (by omega)]

/-- The outcome of a fetch that has reached its limit. -/
theorem Stage.IsRooted.produces_timedOut {g : Registry} {limit : Option Nat} {now wake : Nat}
    {r : Reference} {outcome : Except Failure Value} {until? : Option Nat}
    (rooted : (Stage.fetching wake outcome until?).IsRooted g limit now r) (early : now < wake)
    (late : Context.reached until? now = true) :
    g.Produces limit r (.error (.timedOut (limit.getD 0))) := by
  obtain ⟨p, trace, start, answer, rfl, rfl, rfl, ahead⟩ := rooted
  refine ⟨p, trace, answer, ?_⟩
  cases limit with
  | none => cases late
  | some limit =>
    simp only [Option.map_some, Context.reached, decide_eq_true_eq] at late
    rw [Call.verdict, if_pos (by omega)]
    rfl

/-- Time goes no further than what is due. -/
theorem Stage.IsRooted.wait {g : Registry} {limit : Option Nat} {now moment : Nat} {r : Reference}
    {stage : Stage} (rooted : stage.IsRooted g limit now r)
    (due : ∀ x ∈ Site.moments stage, moment ≤ x) : stage.IsRooted g limit moment r := by
  cases stage with
  | fetching wake outcome until? =>
    obtain ⟨p, trace, start, answer, wakes, same, limits, -⟩ := rooted
    exact ⟨p, trace, start, answer, wakes, same, limits, by simpa [Site.moments] using due⟩
  | _ => exact rooted

/-- A fetch that has just started. -/
theorem Site.isRooted_underway {g : Registry} {r : Reference} {p : Provider} (w : World)
    (answer : g.MayAnswer r.alias (.ok p)) :
    (Site.underway (p.fetch w.trace r.requestPath) w).IsRooted g
      w.resolver.policy.fetchTimeout w.now r := by
  refine ⟨p, w.trace, w.now, answer, rfl, rfl, rfl, ?_⟩
  intro x hx
  simp only [List.mem_cons, Option.mem_toList, Option.map_eq_some_iff] at hx
  rcases hx with rfl | ⟨limit, -, rfl⟩ <;> exact Nat.le_add_right _ _

namespace Rooted

variable {g : Registry} {rules : Policy} {U : Reference → Prop} {C : Multiset Standing}
  {here : Address} {r : Reference} {stage : Stage} {w w' : World}

/-- A resolver that keeps nothing may be used for any references. -/
theorem of_fresh (w : World) (fresh : w.resolver.cache = []) (U : Reference → Prop) :
    Rooted w.registry w.resolver.policy U 0 w :=
  ⟨rfl, .refl _, by simp, by simp, by simp [fresh]⟩

theorem plan {S : Multiset Standing} (rooted : Rooted g rules U S w) (f : Agenda → Agenda) :
    Rooted g rules U S (w.plan f) :=
  ⟨rooted.policy, rooted.registry, rooted.references, rooted.stages, rooted.cache⟩

theorem log {S : Multiset Standing} (rooted : Rooted g rules U S w) (e : Event) :
    Rooted g rules U S (w.log e) :=
  ⟨rooted.policy, rooted.registry, rooted.references, rooted.stages, rooted.cache⟩

/-- Who goes takes nothing along. -/
theorem rest {s : Standing} (rooted : Rooted g rules U (s ::ₘ C) w) : Rooted g rules U C w :=
  ⟨rooted.policy, rooted.registry, fun s hs => rooted.references s (Multiset.mem_cons_of_mem hs),
    fun s hs => rooted.stages s (Multiset.mem_cons_of_mem hs), rooted.cache⟩

/-- Lines, queue and permits have no part in where things come from. -/
theorem update {S : Multiset Standing} (rooted : Rooted g rules U S w) (now : w'.now = w.now)
    (policy : w'.resolver.policy = w.resolver.policy) (registry : g.Later w'.registry)
    (cache : w'.resolver.cache = w.resolver.cache) : Rooted g rules U S w' :=
  ⟨policy.trans rooted.policy, registry, rooted.references, by simpa [now] using rooted.stages,
    by simpa [cache] using rooted.cache⟩

/-- A reference comes to another stage. -/
theorem restage (rooted : Rooted g rules U (⟨here, r, stage⟩ ::ₘ C) w)
    (stage' : Stage) (root : stage'.IsRooted g rules.fetchTimeout w.now r) :
    Rooted g rules U (⟨here, r, stage'⟩ ::ₘ C) w := by
  obtain ⟨policy, registry, references, stages, cache⟩ := rooted
  rw [Multiset.forall_mem_cons] at references stages
  exact ⟨policy, registry, Multiset.forall_mem_cons.mpr references,
    Multiset.forall_mem_cons.mpr ⟨root, stages.2⟩, cache⟩

theorem root (rooted : Rooted g rules U (⟨here, r, stage⟩ ::ₘ C) w) :
    stage.IsRooted g rules.fetchTimeout w.now r :=
  rooted.stages _ (Multiset.mem_cons_self _ _)

/-- The outcome of a fetch is kept. -/
theorem conclude (rooted : Rooted g rules U (⟨here, r, stage⟩ ::ₘ C) w) {o : Outcome}
    (produces : g.Produces rules.fetchTimeout r o) : Rooted g rules U C (Site.conclude r o w) := by
  refine ⟨rooted.policy, rooted.registry, rooted.rest.references, rooted.rest.stages,
    Site.forall_kept_conclude ?_ rooted.cache⟩
  exact ⟨r, rooted.references _ (Multiset.mem_cons_self _ _), rfl, produces⟩

theorem surrender (rooted : Rooted g rules U (⟨here, r, stage⟩ ::ₘ C) w) :
    Rooted g rules U C (Site.surrender r here stage w) := by
  cases stage <;> exact rooted.rest.update rfl rfl (rooted.registry.updateLines rfl rfl) rfl

theorem underway {p : Provider} (rooted : Rooted g rules U (⟨here, r, stage⟩ ::ₘ C) w)
    (answer : g.MayAnswer r.alias (.ok p)) :
    (Site.underway (p.fetch w.trace r.requestPath) w).IsRooted g rules.fetchTimeout w.now r :=
  rooted.policy ▸ Site.isRooted_underway w answer

/-- No move brings in anything from elsewhere. -/
theorem move {p : Progress} (rooted : Rooted g rules U (⟨here, r, stage⟩ ::ₘ C) w)
    (move : Site.Move r here stage w p w') : Rooted g rules U (p.among here r C) w' := by
  cases move with
  | turn _ _ f => exact rooted.plan f
  | stop interrupted => exact rooted.surrender
  | remember cached => exact rooted.rest
  | unbound free => exact rooted.rest
  | refused built => exact rooted.rest
  | seekProvider unbuilt =>
    exact (rooted.restage .awaitingProvider trivial).update rfl rfl
      (rooted.registry.updateLines rfl rfl) rfl
  | providerBuilt built => exact rooted.restage .fresh trivial
  | build unbuilt first live known =>
    have answer := rooted.registry.mayAnswer (.init unbuilt known w.trace)
    exact (rooted.restage (.building _ _) answer).update rfl rfl rooted.registry rfl
  | unknownType unbuilt first unknown =>
    have answer := rooted.registry.mayAnswer (.unknownType unbuilt unknown)
    exact (rooted.restage .fresh trivial).update rfl rfl
      (rooted.registry.setBuilt unbuilt answer) rfl
  | built due unbuilt =>
    exact (rooted.restage .fresh trivial).update rfl rfl
      (rooted.registry.setBuilt unbuilt rooted.root) rfl
  | seekOutcome provides uncached =>
    have answer := rooted.registry.mayAnswer provides.mayAnswer
    exact (rooted.restage (.awaitingOutcome _) answer).update rfl rfl rooted.registry rfl
  | outcomeFetched cached => exact rooted.restage .fresh trivial
  | enqueue first uncached busy =>
    exact (rooted.restage (.queued _) rooted.root).update rfl rfl rooted.registry rfl
  | launch first uncached spare live =>
    exact (rooted.restage _ (rooted.underway rooted.root)).update rfl rfl rooted.registry rfl
  | launchQueued next live =>
    exact (rooted.restage _ (rooted.underway rooted.root)).update rfl rfl rooted.registry rfl
  | fetched due => exact rooted.conclude (rooted.root.produces due)
  | arrived due => exact (rooted.log _).conclude (rooted.root.produces due)
  | timedOut early late =>
    have produces := rooted.root.produces_timedOut early late
    rw [← rooted.policy] at produces
    exact rooted.conclude (rooted.policy ▸ produces)

/-- References that have not begun bring in nothing. -/
theorem arrive {S : Multiset Standing} (rooted : Rooted g rules U 0 w)
    (fresh : ∀ s ∈ S, s.stage = .fresh) (used : ∀ s ∈ S, U s.reference) : Rooted g rules U S w := by
  refine ⟨rooted.policy, rooted.registry, used, ?_, rooted.cache⟩
  intro s hs
  rw [fresh s hs]
  trivial

theorem wait {S : Multiset Standing} {moment : Nat} (rooted : Rooted g rules U S w)
    (due : ∀ s ∈ S, ∀ x ∈ Site.moments s.stage, moment ≤ x) :
    Rooted g rules U S { w with now := moment } :=
  ⟨rooted.policy, rooted.registry, rooted.references,
    fun s hs => (rooted.stages s hs).wait (due s hs), rooted.cache⟩

theorem endures (g : Registry) (rules : Policy) (U : Reference → Prop) :
    Task.Endures (Rooted g rules U) (Rooted g rules U) :=
  Task.Persists.endures
    { turn := fun _ _ f rooted => rooted.plan f
      move := fun rooted move => rooted.move move
      warn := fun _ _ _ rooted => rooted.log _
      drop := fun _ _ _ _ _ rooted => rooted.surrender
      wait := fun _ _ _ rooted _ due => rooted.wait due
      strike := fun _ _ rooted _ =>
        ⟨rooted.policy, rooted.registry, rooted.references, rooted.stages, rooted.cache⟩ }

end Rooted

end LayeredConfig
