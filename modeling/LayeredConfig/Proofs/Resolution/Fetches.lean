import LayeredConfig.Proofs.Resolution.Attribution
import LayeredConfig.Proofs.Resolution.SingleFlight

/-!
What a run fetches.

Whatever a run fetches is asked for on behalf of a reference whose provider is there, and
every outcome that it keeps was fetched (`Fetches`). If a run ends with a value, every
reference has been told something. So it has fetched exactly what the references ask for
that have a provider (`World.resolve_fetches`).
-/

namespace LayeredConfig

/-- What is asked of which provider on behalf of a reference. -/
def Reference.request (r : Reference) : String × List String := (r.alias, r.requestPath)

/-- What a fetch that starts asks for. -/
def Event.fetched? : Event → Option (String × List String)
  | .fetchStarted name path _ => some (name, path)
  | _ => none

/-- The provider that a reference has come to, before it fetches. -/
def Stage.provider? : Stage → Option Provider
  | .awaitingOutcome p => some p
  | .queued p => some p
  | _ => none

theorem Registry.Provides.isUnbuilt {g : Registry} {name : String} {p : Provider}
    (provides : g.Provides name p) : g.isUnbuilt name = false := by
  rcases provides with installed | ⟨_, _, built⟩
  · simp [Registry.isUnbuilt, installed]
  · simp [Registry.isUnbuilt, built]

theorem Registry.Provides.mono {w w' : World} (grows : w.Grows w') {name : String} {p : Provider}
    (provides : w.registry.Provides name p) : w'.registry.Provides name p := by
  have same := grows.bindings name provides.isUnbuilt
  unfold Provides
  rwa [same]

/-- The events since a trace, and who stands where: everything is fetched on behalf of a
reference in `U` with a provider, and what is kept was fetched. -/
structure Fetches (U : Reference → Prop) (start events : Trace) (S : Multiset Standing)
    (w : World) : Prop where
  trace : w.trace = events ++ start
  used : ∀ s ∈ S, U s.reference
  provided : ∀ s ∈ S, ∀ p ∈ s.stage.provider?, w.registry.Provides s.reference.alias p
  started : ∀ s ∈ S, s.stage.isFetching = true →
    s.reference.request ∈ events.filterMap Event.fetched?
  kept : ∀ key o, Assoc.get? w.resolver.cache key = some o →
    ∃ r, U r ∧ r.key = key ∧ r.request ∈ events.filterMap Event.fetched?
  wanted : ∀ q ∈ events.filterMap Event.fetched?,
    ∃ r, U r ∧ r.request = q ∧ ∃ p, w.registry.Provides r.alias p

namespace Fetches

variable {U : Reference → Prop} {start events : Trace} {here : Address} {r : Reference}
  {stage stage' : Stage} {S C : Multiset Standing} {w w' : World} {p : Progress}

/-- Fewer references, in a world that has grown without any fetch. -/
theorem mono (fetches : Fetches U start events S w) {S' : Multiset Standing} (within : S' ⊆ S)
    (grows : w.Grows w') (trace : w'.trace = w.trace)
    (cache : w'.resolver.cache = w.resolver.cache) : Fetches U start events S' w' where
  trace := trace.trans fetches.trace
  used s hs := fetches.used s (within hs)
  provided s hs p hp := (fetches.provided s (within hs) p hp).mono grows
  started s hs := fetches.started s (within hs)
  kept := cache ▸ fetches.kept
  wanted q hq := by
    obtain ⟨r, used, same, p, provides⟩ := fetches.wanted q hq
    exact ⟨r, used, same, p, provides.mono grows⟩

/-- A reference comes to another stage. -/
theorem restage (fetches : Fetches U start events (⟨here, r, stage⟩ ::ₘ C) w)
    (provided : ∀ p ∈ stage'.provider?, w.registry.Provides r.alias p)
    (started : stage'.isFetching = true → r.request ∈ events.filterMap Event.fetched?) :
    Fetches U start events (⟨here, r, stage'⟩ ::ₘ C) w := by
  obtain ⟨trace, used, provided', started', kept, wanted⟩ := fetches
  rw [Multiset.forall_mem_cons] at used provided' started'
  exact ⟨trace, Multiset.forall_mem_cons.mpr used,
    Multiset.forall_mem_cons.mpr ⟨provided, provided'.2⟩,
    Multiset.forall_mem_cons.mpr ⟨started, started'.2⟩, kept, wanted⟩

/-- An event happens that a reference with a provider may cause. -/
theorem log (fetches : Fetches U start events S w) {e : Event}
    (wanted : ∀ q ∈ e.fetched?, ∃ r, U r ∧ r.request = q ∧ ∃ p, w.registry.Provides r.alias p) :
    Fetches U start (e :: events) S (w.log e) := by
  have more : ∀ q ∈ events.filterMap Event.fetched?,
      q ∈ (e :: events).filterMap Event.fetched? := by
    intro q hq
    obtain ⟨e', he, same⟩ := List.mem_filterMap.mp hq
    exact List.mem_filterMap.mpr ⟨e', List.mem_cons_of_mem _ he, same⟩
  refine ⟨by rw [World.log_trace, fetches.trace, List.cons_append], fetches.used, fetches.provided,
    fun s hs busy => more _ (fetches.started s hs busy), ?_,
    forall_mem_filterMap_cons fetches.wanted wanted⟩
  intro key o cached
  obtain ⟨r, used, same, asked⟩ := fetches.kept key o cached
  exact ⟨r, used, same, more _ asked⟩

/-- The outcome of a fetch is kept. -/
theorem conclude (fetches : Fetches U start events (⟨here, r, stage⟩ ::ₘ C) w)
    (busy : stage.isFetching = true) (o : Outcome) :
    Fetches U start events C (Site.conclude r o w) := by
  have gone := fetches.mono (Multiset.subset_cons _ _) (.refl w) rfl rfl
  refine ⟨gone.trace, gone.used, gone.provided, gone.started,
    Site.forall_kept_conclude ?_ fetches.kept, gone.wanted⟩
  exact ⟨r, fetches.used _ (Multiset.mem_cons_self _ _), rfl,
    fetches.started _ (Multiset.mem_cons_self _ _) busy⟩

/-- A reference with a provider starts a fetch. -/
theorem launch (fetches : Fetches U start events (⟨here, r, stage⟩ ::ₘ C) w) {p : Provider}
    (at? : stage.provider? = some p) (grows : w.Grows w')
    (trace : w'.trace = .fetchStarted r.alias r.requestPath w.now :: w.trace)
    (cache : w'.resolver.cache = w.resolver.cache) (idle : stage'.provider? = none) :
    ∃ events', Fetches U start events' (⟨here, r, stage'⟩ ::ₘ C) w' := by
  have self := Multiset.mem_cons_self (⟨here, r, stage⟩ : Standing) C
  have logged := fetches.log (e := .fetchStarted r.alias r.requestPath w.now) fun q same => by
    cases same
    exact ⟨r, fetches.used _ self, rfl, p, fetches.provided _ self p at?⟩
  have restaged : Fetches U start _ (⟨here, r, stage'⟩ ::ₘ C) (w.log _) :=
    logged.restage (by simp [idle]) fun _ => List.mem_filterMap.mpr ⟨_, List.mem_cons_self, rfl⟩
  exact ⟨_, restaged.mono (w := w.log _) (fun _ hs => hs)
    ⟨grows.policy, grows.outcomes, grows.bindings⟩ trace cache⟩

/-- Every move of a reference fetches on its behalf, and keeps what was fetched. -/
theorem move (balanced : Balanced (⟨here, r, stage⟩ ::ₘ C) w)
    (fetches : Fetches U start events (⟨here, r, stage⟩ ::ₘ C) w)
    (move : Site.Move r here stage w p w') :
    ∃ events', Fetches U start events' (p.among here r C) w' := by
  have grows := move.grows balanced
  have self := Multiset.mem_cons_self (⟨here, r, stage⟩ : Standing) C
  have all : ∀ {S : Multiset Standing}, S ⊆ S := fun hs => hs
  have rest : C ⊆ ⟨here, r, stage⟩ ::ₘ C := Multiset.subset_cons _ _
  have provided := fun p => fetches.provided _ self p
  have none : ∀ {p : Provider}, p ∈ (none : Option Provider) → w.registry.Provides r.alias p :=
    fun h => by cases h
  cases move with
  | turn => exact ⟨_, fetches.mono all grows rfl rfl⟩
  | stop interrupted =>
    exact ⟨_, fetches.mono rest grows (Site.surrender_trace r here stage w)
      (Site.surrender_cache r here stage w)⟩
  | remember cached => exact ⟨_, fetches.mono rest grows rfl rfl⟩
  | unbound free => exact ⟨_, fetches.mono rest grows rfl rfl⟩
  | refused built => exact ⟨_, fetches.mono rest grows rfl rfl⟩
  | seekProvider unbuilt =>
    exact ⟨_, (fetches.restage (fun _ => none) fun h => by cases h).mono all grows rfl rfl⟩
  | providerBuilt built =>
    exact ⟨_, fetches.restage (fun _ => none) fun h => by cases h⟩
  | build unbuilt first live known =>
    rename_i config t
    have logged := fetches.log (e := .initStarted r.alias config w.now) fun q same => by cases same
    exact ⟨_, (logged.restage (fun _ => none) fun h => by cases h).mono (w := w.log _) all
      ⟨grows.policy, grows.outcomes, grows.bindings⟩ rfl rfl⟩
  | unknownType unbuilt first unknown =>
    exact ⟨_, (fetches.restage (fun _ => none) fun h => by cases h).mono all grows rfl rfl⟩
  | built due unbuilt =>
    exact ⟨_, (fetches.restage (fun _ => none) fun h => by cases h).mono all grows rfl rfl⟩
  | seekOutcome provides uncached =>
    refine ⟨_, (fetches.restage ?_ fun h => by cases h).mono all grows rfl rfl⟩
    rintro p ⟨⟩
    exact provides
  | outcomeFetched cached => exact ⟨_, fetches.restage (fun _ => none) fun h => by cases h⟩
  | enqueue first uncached busy =>
    rename_i q
    have queued : Fetches U start events (⟨here, r, .queued q⟩ ::ₘ C) w :=
      fetches.restage provided fun h => by cases h
    exact ⟨_, queued.mono all grows rfl rfl⟩
  | launch first uncached spare live => exact fetches.launch rfl grows rfl rfl rfl
  | launchQueued next live => exact fetches.launch rfl grows rfl rfl rfl
  | fetched due => exact ⟨_, fetches.conclude rfl _⟩
  | arrived due => exact ⟨_, (fetches.log fun q same => by cases same).conclude rfl _⟩
  | timedOut early late => exact ⟨_, fetches.conclude rfl _⟩

/-- What a run fetches, every step of it keeps track of. -/
theorem endures (U : Reference → Prop) (start : Trace) :
    Task.Endures (fun S w => Balanced S w ∧ ∃ events, Fetches U start events S w)
      (fun S w => Balanced S w ∧ ∃ events, Fetches U start events S w) := by
  have books := Task.balanced_endures
  have same : ∀ {S w w'}, (Balanced S w ∧ ∃ events, Fetches U start events S w) → Balanced S w' →
      w.Grows w' → w'.trace = w.trace → w'.resolver.cache = w.resolver.cache →
      Balanced S w' ∧ ∃ events, Fetches U start events S w' := by
    rintro S w w' ⟨-, events, fetches⟩ balanced grows trace cache
    exact ⟨balanced, events, fetches.mono (fun _ hs => hs) grows trace cache⟩
  exact Task.Persists.endures
    { turn := fun S w f h => same h (h.1.plan f) (.of_same rfl rfl rfl) rfl rfl
      move := fun ⟨balanced, _, fetches⟩ move => ⟨balanced.move move, fetches.move balanced move⟩
      warn := fun S w e ⟨balanced, _, fetches⟩ =>
        ⟨balanced.log _, _, fetches.log fun q same => by cases same⟩
      drop := fun C here r stage w ⟨balanced, _, fetches⟩ =>
        ⟨balanced.surrender, _, fetches.mono (Multiset.subset_cons _ _) (.surrender w r here stage)
          (Site.surrender_trace r here stage w) (Site.surrender_cache r here stage w)⟩
      wait := fun S w moment h later due =>
        same h (books.wait S w moment h.1 later due) (.of_same rfl rfl rfl) rfl rfl
      strike := fun S w h struck =>
        same h (books.strike S w h.1 struck) (.of_same rfl rfl rfl) rfl rfl }

end Fetches

namespace World

variable {w : World} {v : Value}

/-- A reference with a provider that has been told something has been told an outcome. -/
theorem Tells.exists_outcome {r : Reference} {x : Except ResolveError Value} (told : w.Tells r x)
    {p : Provider} (provides : w.registry.Provides r.alias p) :
    ∃ o, Assoc.get? w.resolver.cache r.key = some o := by
  cases told with
  | outcome cached => exact ⟨_, cached⟩
  | unbound free =>
    rcases provides with bound | ⟨_, _, bound⟩
    · cases free.symm.trans bound
    · cases free.symm.trans bound
  | refused built =>
    rcases provides with bound | ⟨_, _, bound⟩
    · cases built.symm.trans bound
    · cases built.symm.trans bound

/-- A run of a fresh resolver that ends with a value has fetched exactly what the references
with a provider ask for, if the references are plain. -/
theorem resolve_fetches (idle : w.IsIdle) (fresh : w.resolver.cache = [])
    (plain : ∀ r ∈ v.references, r.IsPlain) {u : Value} (ended : (w.resolve v).1 = some (.ok u)) :
    ∃ events, (w.resolve v).2.trace = events ++ w.trace ∧
      ∀ q, q ∈ events.filterMap Event.fetched? ↔ ∃ r ∈ v.references, r.request = q ∧
        ∃ p, (w.resolve v).2.registry.Provides r.alias p := by
  have unstarted := Task.Unstarted.ofValue v
  have fit := idle.fit w.resolver.policy.isParallel unstarted
  have start : Fetches (· ∈ v.references) w.trace []
      ((Task.ofValue v).sites w.resolver.policy.isParallel []) w := by
    refine ⟨rfl, fun s hs => Task.mem_references.mp ⟨s, hs, rfl⟩, ?_, ?_, by simp [fresh], by simp⟩
    · intro s hs p hp
      rw [unstarted.untouched [] s hs] at hp
      cases hp
    · intro s hs busy
      rw [unstarted.untouched [] s hs] at busy
      cases busy
  have tells := fun r hr => exists_tells_of_resolve idle ended (r := r) hr
  obtain ⟨t', w', x, ran, -, runs⟩ := runTask_ends fit
  obtain ⟨-, events, fetches⟩ := runs.keeps_all (Fetches.endures _ _) ⟨fit.balanced, _, start⟩
  rw [resolve, ran] at tells ⊢
  refine ⟨events, fetches.trace, ?_⟩
  intro q
  constructor
  · intro asked
    exact fetches.wanted q asked
  · rintro ⟨r, hr, rfl, p, provides⟩
    obtain ⟨x, told⟩ := tells r hr
    obtain ⟨o, cached⟩ := told.exists_outcome provides
    obtain ⟨r', hr', same, asked⟩ := fetches.kept _ _ cached
    obtain ⟨aliases, paths⟩ := (plain r' hr').eq_of_key_eq (plain _ hr) same
    rw [Reference.request, ← aliases, ← paths]
    exact asked

end World

end LayeredConfig
