import LayeredConfig.Proofs.Resolution.Growth

/-!
Nothing is started twice.

While a run goes on, whatever has been started under a key is either over, so that its
outcome is there, or still at work, in front of the line for it; otherwise the run has been
interrupted, and nothing starts any more (`Flights`). So nobody starts what has been started
before (`Flights.move`). An error that drops a fetch ends this, which does no harm if it
comes up before anybody else moves (`Task.Prompt`).
-/

namespace LayeredConfig

namespace Event

/-- The key for which a fetch starts. -/
def startedKey? : Event → Option String
  | .fetchStarted name path _ => some (cacheKey name path)
  | _ => none

/-- The alias for which a provider starts to initialise. -/
def startedAlias? : Event → Option String
  | .initStarted name _ _ => some name
  | _ => none

end Event

section Events

variable {α β : Type} {f : α → Option β} {a : α} {l : List α}

/-- What one more event starts is among all that has been started. -/
theorem forall_mem_filterMap_cons {P : β → Prop} (rest : ∀ b ∈ l.filterMap f, P b)
    (new : ∀ b ∈ f a, P b) : ∀ b ∈ (a :: l).filterMap f, P b := by
  intro b hb
  cases h : f a with
  | none => exact rest b (by simpa [List.filterMap_cons, h] using hb)
  | some b' =>
    rw [List.filterMap_cons_some h] at hb
    rcases List.mem_cons.mp hb with rfl | hb
    · exact new b h
    · exact rest b hb

/-- Nothing is started twice if one more event starts nothing that was started before. -/
theorem nodup_filterMap_cons (rest : (l.filterMap f).Nodup) (new : ∀ b ∈ f a, b ∉ l.filterMap f) :
    ((a :: l).filterMap f).Nodup := by
  cases h : f a with
  | none => rwa [List.filterMap_cons_none h]
  | some b =>
    rw [List.filterMap_cons_some h]
    exact List.nodup_cons.mpr ⟨new b h, rest⟩

end Events

/-- Nothing starts twice: no fetch under a key, no provider of an alias. -/
structure Trace.IsSingle (t : Trace) : Prop where
  fetches : (t.filterMap Event.startedKey?).Nodup
  inits : (t.filterMap Event.startedAlias?).Nodup

namespace Stage

def isBuilding : Stage → Bool
  | .building _ _ => true
  | _ => false

end Stage

/-! ### What has been started -/

/-- What has been started has ended, or somebody is at work on it, or the run has been
interrupted. -/
def World.IsAccounted (w : World) (S : Multiset Standing) (ended : Prop)
    (atWork : Standing → Prop) : Prop :=
  ended ∨ (∃ s ∈ S, atWork s) ∨ w.interruption?.isSome = true

/-- A fetch that has started is over or under way, or the run has been interrupted. -/
def World.HasFetched (w : World) (S : Multiset Standing) (key : String) : Prop :=
  w.IsAccounted S (∃ o, Assoc.get? w.resolver.cache key = some o) fun s =>
    s.reference.key = key ∧ s.stage.isFetching = true

/-- A provider that has started to initialise is built or being built, or the run has been
interrupted. -/
def World.HasBuilt (w : World) (S : Multiset Standing) (name : String) : Prop :=
  w.IsAccounted S (∃ providerType config result,
      Assoc.get? w.registry.bindings name = some (.declared providerType config (some result)))
    fun s => s.reference.alias = name ∧ s.stage.isBuilding = true

section Started

variable {here : Address} {r : Reference} {stage : Stage} {S C : Multiset Standing} {w w' : World}
  {p : Progress} {key name : String}

theorem Progress.mem_among {s : Standing} (hs : s ∈ C) : s ∈ p.among here r C := by
  cases p with
  | waiting stage => exact Multiset.mem_cons_of_mem hs
  | settled result => exact hs

/-- Whoever fetches is in front of the line. -/
theorem Balanced.first_of_fetching (balanced : Balanced S w) {s : Standing} (hs : s ∈ S)
    (fetching : s.stage.isFetching = true) :
    w.resolver.lines.isFirst s.reference.key s.address := by
  have seat : ⟨s.reference.key, s.address, true⟩ ∈ S.filterMap Standing.outcomeSeat := by
    refine (Multiset.mem_filterMap _ _).mpr ⟨s, hs, ?_⟩
    obtain ⟨a, r, stage⟩ := s
    cases stage <;> first | rfl | cases fetching
  exact (balanced.outcomes.atWork _ seat rfl).2

theorem Balanced.first_of_building (balanced : Balanced S w) {s : Standing} (hs : s ∈ S)
    (building : s.stage.isBuilding = true) :
    w.registry.lines.isFirst s.reference.alias s.address := by
  have seat : ⟨s.reference.alias, s.address, true⟩ ∈ S.filterMap Standing.builderSeat := by
    refine (Multiset.mem_filterMap _ _).mpr ⟨s, hs, ?_⟩
    obtain ⟨a, r, stage⟩ := s
    cases stage <;> first | rfl | cases building
  exact (balanced.builders.atWork _ seat rfl).2

/-- Whoever is in front of the line, without an interruption, fetches what nobody has. -/
theorem World.HasFetched.not_first (fetched : w.HasFetched (⟨here, r, stage⟩ ::ₘ C) r.key)
    (balanced : Balanced (⟨here, r, stage⟩ ::ₘ C) w) (live : w.interruption? = none)
    (lacking : w.resolver.lacks r.key = true) (first : w.resolver.lines.isFirst r.key here) :
    stage.isFetching = true := by
  rcases fetched with ⟨o, cached⟩ | ⟨s, hs, same, fetching⟩ | interrupted
  · rw [lacks_eq_true_iff.mp lacking] at cached
    cases cached
  · have there := balanced.first_of_fetching hs fetching
    rw [same] at there
    have alone := Lines.isFirst_unique there first
    rw [balanced.eq_of_address hs (Multiset.mem_cons_self _ _) alone] at fetching
    exact fetching
  · rw [live] at interrupted
    cases interrupted

theorem World.HasBuilt.not_first (built : w.HasBuilt (⟨here, r, stage⟩ ::ₘ C) r.alias)
    (balanced : Balanced (⟨here, r, stage⟩ ::ₘ C) w) (live : w.interruption? = none)
    {providerType : String} {config : Fields}
    (unbuilt : Assoc.get? w.registry.bindings r.alias = some (.declared providerType config none))
    (first : w.registry.lines.isFirst r.alias here) : stage.isBuilding = true := by
  rcases built with ⟨_, _, _, bound⟩ | ⟨s, hs, same, building⟩ | interrupted
  · rw [unbuilt] at bound
    cases bound
  · have there := balanced.first_of_building hs building
    rw [same] at there
    have alone := Lines.isFirst_unique there first
    rw [balanced.eq_of_address hs (Multiset.mem_cons_self _ _) alone] at building
    exact building
  · rw [live] at interrupted
    cases interrupted

/-- What has been started stays accounted for if it does while the reference that moves is at
work on it. -/
theorem World.IsAccounted.move {ended ended' : Prop} {atWork : Standing → Prop}
    (accounted : w.IsAccounted (⟨here, r, stage⟩ ::ₘ C) ended atWork)
    (move : Site.Move r here stage w p w') (lasts : ended → ended')
    (own : atWork ⟨here, r, stage⟩ → w'.IsAccounted (p.among here r C) ended' atWork) :
    w'.IsAccounted (p.among here r C) ended' atWork := by
  rcases accounted with past | ⟨s, hs, busy⟩ | interrupted
  · exact .inl (lasts past)
  · rcases Multiset.mem_cons.mp hs with rfl | hs
    · exact own busy
    · exact .inr (.inl ⟨s, Progress.mem_among hs, busy⟩)
  · exact .inr (.inr (move.sameMoment.interruption interrupted))

/-- A reference that stops while it is at work has been interrupted. -/
theorem Site.surrender_interrupted {i : Interruption} (interrupted : w.interruption? = some i) :
    (Site.surrender r here stage w).interruption?.isSome = true := by
  cases stage <;> exact Option.isSome_iff_exists.mpr ⟨_, interrupted⟩

theorem World.HasFetched.move (fetched : w.HasFetched (⟨here, r, stage⟩ ::ₘ C) key)
    (balanced : Balanced (⟨here, r, stage⟩ ::ₘ C) w) (move : Site.Move r here stage w p w') :
    w'.HasFetched (p.among here r C) key := by
  apply IsAccounted.move fetched move
  · rintro ⟨o, cached⟩
    exact ⟨o, (move.grows balanced).outcomes _ _ cached⟩
  · -- A fetch that ends leaves its outcome, however it ends.
    rintro ⟨rfl, fetching⟩
    have kept : ∀ (o : Outcome) (w : World), (Site.conclude r o w).HasFetched C r.key :=
      fun o w => .inl ⟨o, by rw [Site.get?_conclude, if_pos rfl]⟩
    cases move with
    | turn => exact .inr (.inl ⟨_, Multiset.mem_cons_self _ _, rfl, fetching⟩)
    | stop interrupted => exact .inr (.inr (Site.surrender_interrupted interrupted))
    | fetched => exact kept _ _
    | arrived => exact kept _ _
    | timedOut => exact kept _ _
    | _ => cases fetching

theorem World.HasBuilt.move (built : w.HasBuilt (⟨here, r, stage⟩ ::ₘ C) name)
    (balanced : Balanced (⟨here, r, stage⟩ ::ₘ C) w) (move : Site.Move r here stage w p w') :
    w'.HasBuilt (p.among here r C) name := by
  apply IsAccounted.move built move
  · rintro ⟨providerType, config, result, bound⟩
    refine ⟨providerType, config, result, ?_⟩
    rw [(move.grows balanced).bindings name (by simp [Registry.isUnbuilt, bound]), bound]
  · rintro ⟨rfl, building⟩
    cases move with
    | turn => exact .inr (.inl ⟨_, Multiset.mem_cons_self _ _, rfl, building⟩)
    | stop interrupted => exact .inr (.inr (Site.surrender_interrupted interrupted))
    | built due unbuilt => exact .inl ⟨_, _, _, Site.get?_setBuilt unbuilt _⟩
    | _ => cases building

end Started

/-! ### Flights -/

/-- What a run has started since a trace: nothing twice, and all of it is accounted for. -/
structure Flights (start events : Trace) (S : Multiset Standing) (w : World) : Prop where
  trace : w.trace = events ++ start
  single : events.IsSingle
  fetches : ∀ key ∈ events.filterMap Event.startedKey?, w.HasFetched S key
  inits : ∀ name ∈ events.filterMap Event.startedAlias?, w.HasBuilt S name

/-- Nothing has been started twice since a trace. -/
def World.IsSingleSince (w : World) (start : Trace) : Prop :=
  ∃ events, w.trace = events ++ start ∧ events.IsSingle

/-- The books balance, and all flights are accounted for. -/
def World.IsOrderlySince (start : Trace) (S : Multiset Standing) (w : World) : Prop :=
  Balanced S w ∧ ∃ events, Flights start events S w

namespace Flights

variable {start events : Trace} {here : Address} {r : Reference} {stage : Stage}
  {S S' C : Multiset Standing} {w w' : World} {p : Progress}

/-- Nothing has been started. -/
theorem refl (S : Multiset Standing) (w : World) : Flights w.trace [] S w :=
  ⟨rfl, ⟨.nil, .nil⟩, by simp, by simp⟩

/-- Nothing is started. -/
theorem onward (flights : Flights start events S w) (trace : w'.trace = w.trace)
    (fetches : ∀ key, w.HasFetched S key → w'.HasFetched S' key)
    (inits : ∀ name, w.HasBuilt S name → w'.HasBuilt S' name) : Flights start events S' w' :=
  ⟨trace.trans flights.trace, flights.single, fun key hk => fetches key (flights.fetches key hk),
    fun name hn => inits name (flights.inits name hn)⟩

/-- A flight that is accounted for and has not been started before. -/
theorem depart (flights : Flights start events S w) {e : Event} (trace : w'.trace = e :: w.trace)
    (fetches : ∀ key, w.HasFetched S key → w'.HasFetched S' key)
    (inits : ∀ name, w.HasBuilt S name → w'.HasBuilt S' name)
    (newKey : ∀ key ∈ e.startedKey?,
      key ∉ events.filterMap Event.startedKey? ∧ w'.HasFetched S' key)
    (newAlias : ∀ name ∈ e.startedAlias?,
      name ∉ events.filterMap Event.startedAlias? ∧ w'.HasBuilt S' name) :
    Flights start (e :: events) S' w' := by
  refine ⟨?_, ⟨?_, ?_⟩, ?_, ?_⟩
  · rw [trace, flights.trace, List.cons_append]
  · exact nodup_filterMap_cons flights.single.fetches fun key hk => (newKey key hk).1
  · exact nodup_filterMap_cons flights.single.inits fun name hn => (newAlias name hn).1
  · exact forall_mem_filterMap_cons (fun key hk => fetches key (flights.fetches key hk))
      fun key hk => (newKey key hk).2
  · exact forall_mem_filterMap_cons (fun name hn => inits name (flights.inits name hn))
      fun name hn => (newAlias name hn).2

/-- No reference starts what has been started before. -/
theorem move (balanced : Balanced (⟨here, r, stage⟩ ::ₘ C) w)
    (flights : Flights start events (⟨here, r, stage⟩ ::ₘ C) w)
    (move : Site.Move r here stage w p w') :
    ∃ events', Flights start events' (p.among here r C) w' := by
  have fetches : ∀ key, w.HasFetched (⟨here, r, stage⟩ ::ₘ C) key →
      w'.HasFetched (p.among here r C) key :=
    fun key fetched => fetched.move balanced move
  have inits : ∀ name, w.HasBuilt (⟨here, r, stage⟩ ::ₘ C) name →
      w'.HasBuilt (p.among here r C) name :=
    fun name built => built.move balanced move
  -- A fetch that starts with the reference in front of the line is a new one.
  have launched : ∀ {w'' : World} {stage' : Stage}, stage.isFetching = false →
      stage'.isFetching = true → w.interruption? = none → w.resolver.lacks r.key = true →
      w.resolver.lines.isFirst r.key here →
      ∀ key ∈ (Event.fetchStarted r.alias r.requestPath w.now).startedKey?,
        key ∉ events.filterMap Event.startedKey? ∧
          w''.HasFetched (⟨here, r, stage'⟩ ::ₘ C) key := by
    intro w'' stage' idle busy live lacking first key same
    cases same
    constructor
    · intro before
      have fetching := (flights.fetches _ before).not_first balanced live lacking first
      rw [idle] at fetching
      cases fetching
    · exact .inr (.inl ⟨_, Multiset.mem_cons_self _ _, rfl, busy⟩)
  cases move with
  | build unbuilt first live known =>
    refine ⟨_, flights.depart rfl fetches inits (fun _ same => by cases same) ?_⟩
    intro name same
    cases same
    constructor
    · intro before
      cases (flights.inits _ before).not_first balanced live unbuilt first
    · exact .inr (.inl ⟨_, Multiset.mem_cons_self _ _, rfl, rfl⟩)
  | launch first uncached spare live =>
    exact ⟨_, flights.depart rfl fetches inits
      (launched rfl rfl live (lacks_eq_true_iff.mpr uncached) first) fun _ same => by cases same⟩
  | launchQueued next live =>
    have atWork := balanced.outcome_atWork rfl
    exact ⟨_, flights.depart rfl fetches inits (launched rfl rfl live atWork.1 atWork.2)
      fun _ same => by cases same⟩
  | arrived due =>
    exact ⟨_, flights.depart rfl fetches inits (fun _ same => by cases same)
      fun _ same => by cases same⟩
  | stop interrupted => exact ⟨_, flights.onward (by cases stage <;> rfl) fetches inits⟩
  | _ => exact ⟨_, flights.onward rfl fetches inits⟩

end Flights

/-! ### Runs -/

section Running

variable {start : Trace} {S S' : Multiset Standing} {w w' : World} {key name : String}

/-- What has been started stays accounted for where nothing is dropped. -/
theorem World.IsAccounted.mono {ended ended' : Prop} {atWork : Standing → Prop}
    (accounted : w.IsAccounted S ended atWork) (within : S ⊆ S') (same : ended → ended')
    (lasts : w.interruption?.isSome = true → w'.interruption?.isSome = true) :
    w'.IsAccounted S' ended' atWork := by
  rcases accounted with past | ⟨s, hs, busy⟩ | interrupted
  · exact .inl (same past)
  · exact .inr (.inl ⟨s, within hs, busy⟩)
  · exact .inr (.inr (lasts interrupted))

/-- Where resolver, registry and trace stay as they are, so do the flights. -/
theorem World.IsOrderlySince.of_same (orderly : IsOrderlySince start S w)
    (balanced : Balanced S' w') (within : S ⊆ S') (cache : w'.resolver.cache = w.resolver.cache)
    (bindings : w'.registry.bindings = w.registry.bindings) (trace : w'.trace = w.trace)
    (lasts : w.interruption?.isSome = true → w'.interruption?.isSome = true) :
    IsOrderlySince start S' w' := by
  obtain ⟨-, events, flights⟩ := orderly
  refine ⟨balanced, events, flights.onward trace ?_ ?_⟩
  · intro key fetched
    exact IsAccounted.mono fetched within (by rw [cache]; exact id) lasts
  · intro name built
    exact IsAccounted.mono built within (by rw [bindings]; exact id) lasts

theorem World.IsOrderlySince.isSingleSince (orderly : IsOrderlySince start S w) :
    w.IsSingleSince start := by
  obtain ⟨-, events, flights⟩ := orderly
  exact ⟨events, flights.trace, flights.single⟩

/-- Every step accounts for what it starts, and whatever is dropped has not been started
twice. -/
theorem flights_endure (start : Trace) :
    Task.Endures (World.IsOrderlySince start) fun _ w => w.IsSingleSince start where
  turn S w f h := h.of_same (h.1.plan f) (fun _ hs => hs) rfl rfl rfl fun h => h
  turnDropped _ _ _ h := h
  move h move := by
    obtain ⟨balanced, events, flights⟩ := h
    exact ⟨balanced.move move, flights.move balanced move⟩
  warn S w e h := by
    obtain ⟨balanced, events, flights⟩ := h
    exact ⟨balanced.log _, _, flights.depart rfl (fun _ h => h) (fun _ h => h)
      (fun _ same => by cases same) fun _ same => by cases same⟩
  weaken _ _ h := h.isSingleSince
  drop C here r stage w h := by
    cases stage <;> exact h
  wait S w moment h later due :=
    h.of_same (Task.balanced_endures.wait S w moment h.1 later due) (fun _ hs => hs) rfl rfl rfl
      (World.interruption_of_le later.le)
  waitDropped _ _ _ h _ _ := h
  strike S w h struck :=
    h.of_same (Task.balanced_endures.strike S w h.1 struck) (fun _ hs => hs) rfl rfl rfl
      fun _ => World.interruption_cancel w
  strikeDropped _ _ h _ := h

end Running

namespace World

variable {t : Task} {w : World} {start : Trace}

/-- A run starts nothing twice, nor what has been started before, if every error comes up at
once. If it ends with a value, all that has been started is accounted for in any case. -/
theorem runTask_single (fit : t.Fit w.resolver.policy.isParallel w)
    (orderly : IsOrderlySince start 0 w) :
    (t.Prompt w.resolver.policy.isParallel → (w.runTask t).2.IsSingleSince start) ∧
      ∀ u, (w.runTask t).1 = some (.ok u) → IsOrderlySince start 0 (w.runTask t).2 := by
  have before : IsOrderlySince start (t.sites w.resolver.policy.isParallel []) w :=
    orderly.of_same fit.balanced (fun _ hs => absurd hs (Multiset.notMem_zero _)) rfl rfl rfl
      fun h => h
  obtain ⟨t', w', x, ran, result, runs⟩ := runTask_ends fit
  rw [ran]
  constructor
  · intro prompt
    exact (runs.keeps (flights_endure start) (.inr prompt) before).1
  · rintro u ⟨⟩
    cases t' with
    | finished v =>
      have after := runs.keeps_of_sound (flights_endure start) (.finished v) before
      rw [Task.sites_finished] at after
      exact after.of_same (after.1.plan fun _ => {}) (fun _ hs => hs) rfl rfl rfl fun h => h
    | _ => cases result

end World

end LayeredConfig
