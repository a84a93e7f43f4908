import LayeredConfig.Proofs.Resolution.Script
import LayeredConfig.Proofs.Resolution.Serial

/-!
# The books of a run in order

What is needed to tell which call comes next is all in the books that a run keeps (`Ledger`).
Whatever is there has been started since the run began: a provider that had to be initialised has
begun to (`Ledger.init_mem`), and an outcome that is kept has been fetched
(`Ledger.fetch_mem_of_cached`). Whoever is first in line for what is not there is the first to
start it (`Ledger.init_not_mem`, `Ledger.fetch_not_mem`).
-/

namespace LayeredConfig

/-! ### What has been done -/

/-- What has been done in a world since it was another one. -/
def World.actsSince (w₀ w : World) : List Act :=
  Trace.acts (w.trace.take (w.trace.length - w₀.trace.length))

theorem World.actsSince_eq {w₀ w : World} {events : Trace} (trace : w.trace = events ++ w₀.trace) :
    w₀.actsSince w = Trace.acts events := by
  simp [actsSince, trace]

theorem World.actsSince_self (w : World) : w.actsSince w = [] := by
  simp [actsSince, Trace.acts]

theorem World.actsSince_of_same {w₀ w w' : World} (trace : w'.trace = w.trace) :
    w₀.actsSince w' = w₀.actsSince w := by
  rw [actsSince, trace, actsSince]

/-- One more event happens. -/
theorem World.actsSince_cons {w₀ w w' : World} {e : Event}
    (since : ∃ events, w.trace = events ++ w₀.trace) (trace : w'.trace = e :: w.trace) :
    w₀.actsSince w' = w₀.actsSince w ++ e.act?.toList := by
  obtain ⟨events, since⟩ := since
  have whole : w'.trace = (e :: events) ++ w₀.trace := by rw [trace, since, List.cons_append]
  rw [actsSince_eq whole, actsSince_eq since, Trace.acts, Trace.acts, List.reverse_cons,
    List.filterMap_append]
  cases h : e.act? <;> simp [h]

theorem Trace.mem_acts_iff {t : Trace} {a : Act} : a ∈ t.acts ↔ ∃ e ∈ t, e.act? = some a := by
  simp [acts]

theorem Trace.init_mem_acts_iff {t : Trace} {name : String} :
    .init name ∈ t.acts ↔ name ∈ t.filterMap Event.startedAlias? := by
  rw [mem_acts_iff, List.mem_filterMap]
  refine exists_congr fun e => and_congr_right fun _ => ?_
  cases e <;> simp [Event.act?, Event.startedAlias?]

theorem Trace.fetch_mem_acts_iff {t : Trace} {name : String} {path : List String} :
    .fetch name path ∈ t.acts ↔ (name, path) ∈ t.filterMap Event.fetched? := by
  rw [mem_acts_iff, List.mem_filterMap]
  refine exists_congr fun e => and_congr_right fun _ => ?_
  cases e <;> simp [Event.act?, Event.fetched?]

/-! ### What has been initialised -/

/-- The events since a trace, and who stands where: every provider that is being built has begun
to initialise, and so has every one that is built and had to be initialised. -/
structure Initialised (g : Registry) (start events : Trace) (S : Multiset Standing) (w : World) :
    Prop where
  trace : w.trace = events ++ start
  building : ∀ s ∈ S, s.stage.isBuilding = true →
    s.reference.alias ∈ events.filterMap Event.startedAlias?
  built : ∀ name, g.initialises name = true → w.registry.isUnbuilt name = false →
    name ∈ events.filterMap Event.startedAlias?

namespace Initialised

variable {g : Registry} {start events : Trace} {here : Address} {r : Reference} {stage : Stage}
  {S S' C : Multiset Standing} {w w' : World} {p : Progress}

/-- Something may happen, but nothing is built. -/
theorem onward (initialised : Initialised g start events S w) (new : Trace)
    (trace : w'.trace = new ++ w.trace)
    (bindings : w'.registry.bindings = w.registry.bindings)
    (building : ∀ s ∈ S', s.stage.isBuilding = true →
      s ∈ S ∨ s.reference.alias ∈ new.filterMap Event.startedAlias?) :
    Initialised g start (new ++ events) S' w' := by
  refine ⟨by rw [trace, initialised.trace, List.append_assoc], fun s hs busy => ?_,
    fun name toDo built => ?_⟩
  · rw [List.filterMap_append, List.mem_append]
    exact (building s hs busy).symm.imp_right fun hs => initialised.building s hs busy
  · unfold Registry.isUnbuilt at built
    rw [bindings] at built
    rw [List.filterMap_append, List.mem_append]
    exact .inr (initialised.built name toDo built)

/-- The building of a provider is over that has begun to initialise, if it had to. -/
theorem setBuilt (initialised : Initialised g start events (⟨here, r, stage⟩ ::ₘ C) w)
    (unbuilt : w.registry.isUnbuilt r.alias = true) (result : Except SetupError Provider)
    (begun : g.initialises r.alias = true → r.alias ∈ events.filterMap Event.startedAlias?) :
    Initialised g start events (⟨here, r, .fresh⟩ ::ₘ C)
      (w.updateRegistry (·.setBuilt r.alias result)) := by
  refine ⟨initialised.trace, ?_, ?_⟩
  · intro s hs busy
    rcases Multiset.mem_cons.mp hs with rfl | hs
    · cases busy
    · exact initialised.building s (Multiset.mem_cons_of_mem hs) busy
  · intro name toDo built
    rw [World.updateRegistry_registry, isUnbuilt_setBuilt unbuilt] at built
    by_cases same : name = r.alias
    · rw [same] at toDo ⊢
      exact begun toDo
    · exact initialised.built name toDo (by simpa [same] using built)

theorem move (later : g.Later w.registry)
    (initialised : Initialised g start events (⟨here, r, stage⟩ ::ₘ C) w)
    (move : Site.Move r here stage w p w') :
    ∃ events', Initialised g start events' (p.among here r C) w' := by
  have rest : ∀ {new : Trace}, ∀ s ∈ C, s.stage.isBuilding = true →
      s ∈ (⟨here, r, stage⟩ ::ₘ C) ∨ s.reference.alias ∈ new.filterMap Event.startedAlias? :=
    fun s hs _ => .inl (Multiset.mem_cons_of_mem hs)
  have restage : ∀ {new : Trace} {stage'}, stage'.isBuilding = false →
      ∀ s ∈ (⟨here, r, stage'⟩ ::ₘ C : Multiset Standing), s.stage.isBuilding = true →
        s ∈ (⟨here, r, stage⟩ ::ₘ C) ∨ s.reference.alias ∈ new.filterMap Event.startedAlias? := by
    intro new stage' idle s hs busy
    rcases Multiset.mem_cons.mp hs with rfl | hs
    · rw [idle] at busy
      cases busy
    · exact rest s hs busy
  cases move with
  | turn => exact ⟨_, initialised.onward [] rfl rfl fun _ hs _ => .inl hs⟩
  | stop =>
    exact ⟨_, initialised.onward [] (Site.surrender_trace r here stage w) (by cases stage <;> rfl)
      rest⟩
  | build unbuilt first live known =>
    refine ⟨_, initialised.onward [.initStarted r.alias _ w.now] rfl rfl fun s hs busy => ?_⟩
    rcases Multiset.mem_cons.mp hs with rfl | hs
    · exact .inr (by simp [Event.startedAlias?])
    · exact rest s hs busy
  | unknownType unbuilt first unknown =>
    refine ⟨_, initialised.setBuilt (isUnbuilt_iff.mpr ⟨_, _, unbuilt⟩) _ fun toDo => ?_⟩
    rw [later.types] at unknown
    simp [Registry.initialises, later.unbuilt unbuilt, Assoc.contains, unknown] at toDo
  | built due unbuilt =>
    exact ⟨_, initialised.setBuilt (isUnbuilt_iff.mpr ⟨_, _, unbuilt⟩) _ fun _ =>
      initialised.building _ (Multiset.mem_cons_self _ _) rfl⟩
  | remember | unbound | refused | fetched | timedOut =>
    exact ⟨_, initialised.onward [] rfl rfl rest⟩
  | arrived => exact ⟨_, initialised.onward [_] rfl rfl rest⟩
  | launch | launchQueued => exact ⟨_, initialised.onward [_] rfl rfl (restage rfl)⟩
  | _ => exact ⟨_, initialised.onward [] rfl rfl (restage rfl)⟩

end Initialised

/-! ### The books of a run in order -/

/-- The books of a run that has begun in a world: they balance, everything comes from that
world, everything that has been started is accounted for, and calls do not overlap unless the
run has been interrupted. -/
structure Ledger (w₀ : World) (U : Reference → Prop) (S : Multiset Standing) (w : World) :
    Prop where
  orderly : w.IsOrderlySince w₀.trace S
  rooted : Rooted w₀.registry w₀.resolver.policy U S w
  fetches : ∃ events, Fetches U w₀.trace events S w
  initialised : ∃ events, Initialised w₀.registry w₀.trace events S w
  spaced : w.interruption?.isSome = true ∨ ∃ events, Spaced w₀ events S w

namespace Ledger

variable {w₀ w w' : World} {U : Reference → Prop} {S C : Multiset Standing} {here : Address}
  {r : Reference} {stage : Stage} {p : Progress}

theorem balanced (ledger : Ledger w₀ U S w) : Balanced S w := ledger.orderly.1

theorem move (ledger : Ledger w₀ U (⟨here, r, stage⟩ ::ₘ C) w)
    (fresh : ∀ s ∈ C, s.stage = .fresh) (move : Site.Move r here stage w p w') :
    Ledger w₀ U (p.among here r C) w' := by
  obtain ⟨events, fetches⟩ := ledger.fetches
  obtain ⟨_, initialised⟩ := ledger.initialised
  refine ⟨(flights_endure _).move ledger.orderly move, ledger.rooted.move move,
    fetches.move ledger.balanced move, initialised.move ledger.rooted.registry move, ?_⟩
  rcases ledger.spaced with interrupted | ⟨_, spaced⟩
  · exact .inl (move.sameMoment.interruption interrupted)
  · cases live : w.interruption? with
    | some i => exact .inl (move.sameMoment.interruption (by simp [live]))
    | none =>
      exact .inr (spaced.move ledger.balanced ledger.rooted
        (fetches.provided _ (Multiset.mem_cons_self _ _)) fresh live move)

theorem warn (ledger : Ledger w₀ U S w) (fresh : ∀ s ∈ S, s.stage = .fresh) (e : ResolveError) :
    Ledger w₀ U S (w.log (.downgraded e w.now)) := by
  obtain ⟨_, initialised⟩ := ledger.initialised
  refine ⟨(flights_endure _).warn S w e ledger.orderly, ledger.rooted.log _,
    ((Fetches.endures U _).warn S w e ⟨ledger.balanced, ledger.fetches⟩).2,
    ⟨_, initialised.onward [_] rfl rfl fun _ hs _ => .inl hs⟩, ?_⟩
  refine ledger.spaced.imp_right fun ⟨_, spaced⟩ => ?_
  exact ⟨_, spaced.extend rfl (.of_same rfl rfl rfl) (fun m hm => ⟨m, le_rfl, hm⟩)
    ⟨w.now, le_rfl, (isFree_of_fresh fresh).mpr rfl⟩ fun time start => by cases start⟩

/-- Who goes without having begun takes nothing along. -/
theorem drop (ledger : Ledger w₀ U (⟨here, r, .fresh⟩ ::ₘ C) w) : Ledger w₀ U C w := by
  obtain ⟨balanced, events, flights⟩ := ledger.orderly
  obtain ⟨_, fetches⟩ := ledger.fetches
  obtain ⟨_, initialised⟩ := ledger.initialised
  have within : C ⊆ ⟨here, r, .fresh⟩ ::ₘ C := Multiset.subset_cons _ _
  have accounted : ∀ {ended : Prop} {atWork : Standing → Prop}, ¬atWork ⟨here, r, .fresh⟩ →
      w.IsAccounted (⟨here, r, .fresh⟩ ::ₘ C) ended atWork → w.IsAccounted C ended atWork := by
    intro ended atWork idle accounted
    refine accounted.imp_right (.imp_left fun ⟨s, hs, busy⟩ => ?_)
    rcases Multiset.mem_cons.mp hs with rfl | hs
    · exact absurd busy idle
    · exact ⟨s, hs, busy⟩
  refine ⟨⟨balanced.surrender, events, flights.onward rfl
      (fun _ => accounted fun busy => by cases busy.2)
      fun _ => accounted fun busy => by cases busy.2⟩, ledger.rooted.rest,
    ⟨_, fetches.mono within (.refl w) rfl rfl⟩,
    ⟨_, initialised.onward [] rfl rfl fun s hs _ => .inl (within hs)⟩, ?_⟩
  refine ledger.spaced.imp_right fun ⟨_, spaced⟩ => ?_
  refine ⟨_, spaced.onward rfl (.refl w) fun m hm => ⟨m, le_rfl, ?_⟩⟩
  refine hm.imp (fun ⟨s, hs, inside⟩ => ⟨s, within hs, inside⟩) fun ⟨now, idle⟩ => ?_
  exact ⟨now, Multiset.forall_mem_cons.mpr ⟨rfl, idle⟩⟩

theorem wait (ledger : Ledger w₀ U S w) {moment : Nat} (later : w.now < moment)
    (due : ∀ s ∈ S, ∀ x ∈ Site.moments s.stage, moment ≤ x) :
    Ledger w₀ U S { w with now := moment } := by
  obtain ⟨_, initialised⟩ := ledger.initialised
  refine ⟨(flights_endure _).wait S w moment ledger.orderly later due, ledger.rooted.wait due,
    ((Fetches.endures U _).wait S w moment ⟨ledger.balanced, ledger.fetches⟩ later due).2,
    ⟨_, initialised.onward [] rfl rfl fun _ hs _ => .inl hs⟩, ?_⟩
  refine ledger.spaced.imp (World.interruption_of_le later.le) fun ⟨_, spaced⟩ => ?_
  refine ⟨_, spaced.onward rfl (.of_same rfl rfl rfl) fun m hm => ?_⟩
  rcases hm with underway | ⟨rfl, idle⟩
  · exact ⟨m, le_rfl, .inl underway⟩
  · exact ⟨w.now, later.le, .inr ⟨rfl, idle⟩⟩

theorem endures (w₀ : World) (U : Reference → Prop) : Task.EnduresInOrder (Ledger w₀ U) where
  turn S w f ledger := by
    obtain ⟨_, initialised⟩ := ledger.initialised
    exact ⟨(flights_endure _).turn S w f ledger.orderly, ledger.rooted.plan f,
      ((Fetches.endures U _).turn S w f ⟨ledger.balanced, ledger.fetches⟩).2,
      ⟨_, initialised.onward [] rfl rfl fun _ hs _ => .inl hs⟩,
      ledger.spaced.imp_right fun ⟨_, spaced⟩ =>
        ⟨_, spaced.onward rfl (.of_same rfl rfl rfl) fun m hm => ⟨m, le_rfl, hm⟩⟩⟩
  move fresh ledger move := ledger.move fresh move
  warn S w e fresh ledger := ledger.warn fresh e
  drop C here r w ledger := ledger.drop
  wait S w moment ledger later due := ledger.wait later due
  strike S w ledger struck := by
    obtain ⟨_, initialised⟩ := ledger.initialised
    exact ⟨(flights_endure _).strike S w ledger.orderly struck,
      (Rooted.endures _ _ U).strike S w ledger.rooted struck,
      ((Fetches.endures U _).strike S w ⟨ledger.balanced, ledger.fetches⟩ struck).2,
      ⟨_, initialised.onward [] rfl rfl fun _ hs _ => .inl hs⟩,
      .inl (World.interruption_cancel w)⟩

/-- Before a run nothing has been done. -/
theorem start {w : World} (idle : w.IsIdle) (fresh : w.resolver.cache = []) (v : Value) :
    Ledger w (· ∈ v.references) ((Task.ofValue v).sites false []) w := by
  have unstarted := Task.Unstarted.ofValue v
  have untouched : ∀ s ∈ (Task.ofValue v).sites false [], s.stage = .fresh :=
    unstarted.untouched []
  have balanced := (idle.fit false unstarted).balanced
  have nobody : ∀ {busy : Stage → Bool}, busy .fresh = false →
      ∀ s ∈ (Task.ofValue v).sites false [], busy s.stage ≠ true := by
    intro busy idle s hs
    simp [untouched s hs, idle]
  refine ⟨⟨balanced, [], .refl _ _⟩,
    (Rooted.of_fresh w fresh _).arrive_ofValue false fun r hr => hr, ⟨[], ?_⟩, ⟨[], ?_⟩,
    .inr ⟨[], .refl _ _⟩⟩
  · refine ⟨rfl, fun s hs => Task.mem_references.mp ⟨s, hs, rfl⟩, fun s hs p hp => ?_,
      fun s hs busy => absurd busy (nobody rfl s hs), by simp [fresh], by simp⟩
    rw [untouched s hs] at hp
    cases hp
  · refine ⟨rfl, fun s hs busy => absurd busy (nobody rfl s hs), fun name toDo built => ?_⟩
    unfold Registry.initialises at toDo
    split at toDo
    · rename_i bound
      simp [Registry.isUnbuilt, bound] at built
    · cases toDo

/-! ### What the books say -/

theorem since (ledger : Ledger w₀ U S w) : ∃ events, w.trace = events ++ w₀.trace := by
  obtain ⟨events, fetches⟩ := ledger.fetches
  exact ⟨events, fetches.trace⟩

/-- Whoever has a provider that had to be initialised has seen it begin to. -/
theorem init_mem (ledger : Ledger w₀ U S w) {name : String}
    (built : w.registry.isUnbuilt name = false)
    (toDo : w₀.registry.initialises name = true) : .init name ∈ w₀.actsSince w := by
  obtain ⟨events, initialised⟩ := ledger.initialised
  rw [World.actsSince_eq initialised.trace, Trace.init_mem_acts_iff]
  exact initialised.built name toDo built

/-- Whatever has been fetched has been fetched from a provider that is there. -/
theorem built_of_fetch_mem (ledger : Ledger w₀ U S w) {name : String} {path : List String}
    (fetched : .fetch name path ∈ w₀.actsSince w) : w.registry.isUnbuilt name = false := by
  obtain ⟨events, fetches⟩ := ledger.fetches
  rw [World.actsSince_eq fetches.trace, Trace.fetch_mem_acts_iff] at fetched
  obtain ⟨r, -, same, p, provides⟩ := fetches.wanted _ fetched
  cases same
  exact provides.isUnbuilt

/-- A plain reference whose outcome is kept has been fetched for. -/
theorem fetch_mem_of_cached (ledger : Ledger w₀ U S w) (plain : ∀ r, U r → r.IsPlain)
    (used : U r) {o : Outcome} (cached : Assoc.get? w.resolver.cache r.key = some o) :
    .fetch r.alias r.requestPath ∈ w₀.actsSince w := by
  obtain ⟨events, fetches⟩ := ledger.fetches
  rw [World.actsSince_eq fetches.trace, Trace.fetch_mem_acts_iff]
  obtain ⟨r', used', same, asked⟩ := fetches.kept _ _ cached
  obtain ⟨name, path⟩ := (plain r' used').eq_of_key_eq (plain r used) same
  rwa [← name, ← path]

/-- A reference that fetches has been fetched for. -/
theorem fetch_mem_of_fetching (ledger : Ledger w₀ U (⟨here, r, stage⟩ ::ₘ C) w)
    (fetching : stage.isFetching = true) : .fetch r.alias r.requestPath ∈ w₀.actsSince w := by
  obtain ⟨events, fetches⟩ := ledger.fetches
  rw [World.actsSince_eq fetches.trace, Trace.fetch_mem_acts_iff]
  exact fetches.started _ (Multiset.mem_cons_self _ _) fetching

/-- Whoever is in front of the line for an outcome that is not there has not been fetched for. -/
theorem fetch_not_mem (ledger : Ledger w₀ U (⟨here, r, stage⟩ ::ₘ C) w)
    (live : w.interruption? = none) (lacking : w.resolver.lacks r.key = true)
    (first : w.resolver.lines.isFirst r.key here) (idle : stage.isFetching = false) :
    .fetch r.alias r.requestPath ∉ w₀.actsSince w := by
  obtain ⟨balanced, events, flights⟩ := ledger.orderly
  rw [World.actsSince_eq flights.trace, Trace.fetch_mem_acts_iff, List.mem_filterMap]
  rintro ⟨e, he, asked⟩
  have started : r.key ∈ events.filterMap Event.startedKey? := by
    refine List.mem_filterMap.mpr ⟨e, he, ?_⟩
    cases e <;> cases asked
    rfl
  have fetching := (flights.fetches _ started).not_first balanced live lacking first
  rw [idle] at fetching
  cases fetching

/-- Whoever is in front of the line for a provider that is not there has not seen it begin to
initialise. -/
theorem init_not_mem (ledger : Ledger w₀ U (⟨here, r, .awaitingProvider⟩ ::ₘ C) w)
    (live : w.interruption? = none) {providerType : String} {config : Fields}
    (unbuilt : Assoc.get? w.registry.bindings r.alias = some (.declared providerType config none))
    (first : w.registry.lines.isFirst r.alias here) : .init r.alias ∉ w₀.actsSince w := by
  obtain ⟨balanced, events, flights⟩ := ledger.orderly
  rw [World.actsSince_eq flights.trace, Trace.init_mem_acts_iff]
  intro started
  cases (flights.inits _ started).not_first balanced live unbuilt first

end Ledger

end LayeredConfig
