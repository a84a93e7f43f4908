import LayeredConfig.Proofs.Resolution.Session
import LayeredConfig.Proofs.Resolution.Substitution

/-!
A resolver may be used again.

Whatever has become of earlier operations, every outcome that a resolver keeps was fetched
from the provider that its alias stands for now (`Sourced`), and a run fetches only what is
not kept yet (`World.resolve_spares`). So a resolver that has been used comes to the same
as a new one with the same registry (`World.resolve_reused`).
-/

namespace LayeredConfig

/-! ### Where outcomes come from -/

/-- An outcome of a fetch for a reference by the provider that its alias stands for. -/
def Registry.HasProduced (g : Registry) (limit : Option Nat) (r : Reference) (o : Outcome) : Prop :=
  ∃ p, g.Provides r.alias p ∧ (Registry.only [] r.alias p).Produces limit r o

/-- What a reference holds at a stage comes from the provider that its alias stands for. -/
def Stage.IsSourced (g : Registry) (limit : Option Nat) (now : Nat) (r : Reference) : Stage → Prop
  | .fresh => True
  | .awaitingProvider => True
  | .building _ _ => True
  | stage => ∃ p, g.Provides r.alias p ∧ stage.IsRooted (.only [] r.alias p) limit now r

/-- Everything that references and resolver hold comes from providers that aliases stand for:
`U` are the references that the resolver is used for. -/
structure Sourced (U : Reference → Prop) (S : Multiset Standing) (w : World) : Prop where
  references : ∀ s ∈ S, U s.reference
  stages : ∀ s ∈ S,
    s.stage.IsSourced w.registry w.resolver.policy.fetchTimeout w.now s.reference
  cache : ∀ key o, Assoc.get? w.resolver.cache key = some o →
    ∃ r, U r ∧ r.key = key ∧ w.registry.HasProduced w.resolver.policy.fetchTimeout r o

theorem Registry.provides_only (name : String) (p : Provider) :
    (Registry.only [] name p).MayAnswer name (.ok p) :=
  .installed (by simp [only, Assoc.get?_cons])

namespace Registry.HasProduced

variable {g : Registry} {limit : Option Nat} {r : Reference} {o : Outcome}

theorem produces (produced : g.HasProduced limit r o) : g.Produces limit r o := by
  obtain ⟨p, provides, p', trace, answer, same⟩ := produced
  obtain rfl : p' = p := Except.ok.inj (mayAnswer_only answer).2
  exact ⟨p', trace, provides.mayAnswer, same⟩

theorem mono {w w' : World} (retains : w.Retains w') (produced : w.registry.HasProduced limit r o) :
    w'.registry.HasProduced limit r o := by
  obtain ⟨p, provides, produces⟩ := produced
  exact ⟨p, retains.providers _ _ provides, produces⟩

end Registry.HasProduced

theorem Stage.IsSourced.mono {w w' : World} (retains : w.Retains w') {limit : Option Nat}
    {now : Nat} {r : Reference} {stage : Stage}
    (sourced : stage.IsSourced w.registry limit now r) :
    stage.IsSourced w'.registry limit now r := by
  cases stage with
  | fresh => trivial
  | awaitingProvider => trivial
  | building wake outcome => trivial
  | _ =>
    obtain ⟨p, provides, rooted⟩ := sourced
    exact ⟨p, retains.providers _ _ provides, rooted⟩

theorem Stage.IsSourced.wait {g : Registry} {limit : Option Nat} {now moment : Nat} {r : Reference}
    {stage : Stage} (sourced : stage.IsSourced g limit now r)
    (due : ∀ x ∈ Site.moments stage, moment ≤ x) : stage.IsSourced g limit moment r := by
  cases stage with
  | fresh => trivial
  | awaitingProvider => trivial
  | building wake outcome => trivial
  | _ =>
    obtain ⟨p, provides, rooted⟩ := sourced
    exact ⟨p, provides, rooted.wait due⟩

namespace Sourced

variable {U : Reference → Prop} {S S' C : Multiset Standing} {here : Address} {r : Reference}
  {stage stage' : Stage} {w w' : World}

/-- A resolver that keeps nothing may be used for any references. -/
theorem of_fresh (w : World) (fresh : w.resolver.cache = []) (U : Reference → Prop) :
    Sourced U 0 w :=
  ⟨by simp, by simp, by simp [fresh]⟩

/-- Fewer references, in a world that keeps the same outcomes. -/
theorem mono (sourced : Sourced U S w) (within : S' ⊆ S) (retains : w.Retains w')
    (now : w'.now = w.now) (cache : w'.resolver.cache = w.resolver.cache) : Sourced U S' w' where
  references s hs := sourced.references s (within hs)
  stages s hs := by
    rw [now, retains.policy]
    exact (sourced.stages s (within hs)).mono retains
  cache key o found := by
    rw [cache] at found
    obtain ⟨r, used, same, produced⟩ := sourced.cache key o found
    exact ⟨r, used, same, by rw [retains.policy]; exact produced.mono retains⟩

/-- Who goes takes nothing along. -/
theorem rest (sourced : Sourced U (⟨here, r, stage⟩ ::ₘ C) w) : Sourced U C w :=
  sourced.mono (Multiset.subset_cons _ _) (.refl w) rfl rfl

theorem source (sourced : Sourced U (⟨here, r, stage⟩ ::ₘ C) w) :
    stage.IsSourced w.registry w.resolver.policy.fetchTimeout w.now r :=
  sourced.stages _ (Multiset.mem_cons_self _ _)

/-- A reference comes to another stage. -/
theorem restage (sourced : Sourced U (⟨here, r, stage⟩ ::ₘ C) w) (stage' : Stage)
    (source : stage'.IsSourced w.registry w.resolver.policy.fetchTimeout w.now r) :
    Sourced U (⟨here, r, stage'⟩ ::ₘ C) w := by
  obtain ⟨references, stages, cache⟩ := sourced
  rw [Multiset.forall_mem_cons] at references stages
  exact ⟨Multiset.forall_mem_cons.mpr references, Multiset.forall_mem_cons.mpr ⟨source, stages.2⟩,
    cache⟩

/-- The outcome of a fetch is kept. -/
theorem conclude (sourced : Sourced U (⟨here, r, stage⟩ ::ₘ C) w) {o : Outcome}
    (produced : w.registry.HasProduced w.resolver.policy.fetchTimeout r o) :
    Sourced U C (Site.conclude r o w) := by
  refine ⟨sourced.rest.references, sourced.rest.stages,
    Site.forall_kept_conclude ?_ sourced.cache⟩
  exact ⟨r, sourced.references _ (Multiset.mem_cons_self _ _), rfl, produced⟩

/-- A fetch starts with the provider at hand. -/
theorem launch {p : Provider} (sourced : Sourced U (⟨here, r, stage⟩ ::ₘ C) w)
    (source : ∃ q, w.registry.Provides r.alias q ∧
      (Registry.only [] r.alias q).MayAnswer r.alias (.ok p)) :
    Sourced U (⟨here, r, Site.underway (p.fetch w.trace r.requestPath) w⟩ ::ₘ C) w := by
  obtain ⟨q, provides, answer⟩ := source
  exact sourced.restage _ ⟨q, provides, Site.isRooted_underway w answer⟩

/-- No move brings in anything from elsewhere. -/
theorem move {p : Progress} (balanced : Balanced (⟨here, r, stage⟩ ::ₘ C) w)
    (sourced : Sourced U (⟨here, r, stage⟩ ::ₘ C) w) (move : Site.Move r here stage w p w') :
    Sourced U (p.among here r C) w' := by
  have retains := World.Retains.of_grows (move.grows balanced)
  have all : ∀ {S : Multiset Standing}, S ⊆ S := fun hs => hs
  have gone : C ⊆ ⟨here, r, stage⟩ ::ₘ C := Multiset.subset_cons _ _
  cases move with
  | turn => exact sourced.mono all retains rfl rfl
  | stop interrupted =>
    exact sourced.mono gone retains (Site.surrender_sameMoment r here stage w).1
      (Site.surrender_cache r here stage w)
  | remember cached => exact sourced.rest
  | unbound free => exact sourced.rest
  | refused built => exact sourced.rest
  | seekProvider unbuilt =>
    exact (sourced.restage .awaitingProvider trivial).mono all retains rfl rfl
  | providerBuilt built => exact sourced.restage .fresh trivial
  | build unbuilt first live known =>
    exact (sourced.restage (.building _ _) trivial).mono all retains rfl rfl
  | unknownType unbuilt first unknown =>
    exact (sourced.restage .fresh trivial).mono all retains rfl rfl
  | built due unbuilt => exact (sourced.restage .fresh trivial).mono all retains rfl rfl
  | @seekOutcome _ q provides uncached =>
    exact (sourced.restage (.awaitingOutcome q)
      ⟨q, provides, Registry.provides_only _ q⟩).mono all retains rfl rfl
  | outcomeFetched cached => exact sourced.restage .fresh trivial
  | @enqueue _ q first uncached busy =>
    exact (sourced.restage (.queued q) sourced.source).mono all retains rfl rfl
  | launch first uncached spare live =>
    exact (sourced.launch sourced.source).mono all retains rfl rfl
  | launchQueued next live =>
    exact (sourced.launch sourced.source).mono all retains rfl rfl
  | fetched due =>
    obtain ⟨q, provides, root⟩ := sourced.source
    exact sourced.conclude ⟨q, provides, root.produces due⟩
  | arrived due =>
    obtain ⟨q, provides, root⟩ := sourced.source
    have logged : Sourced U _ (w.log (.fetchEnded r.alias r.requestPath w.now)) :=
      sourced.mono all (.of_grows (.of_same rfl rfl rfl)) rfl rfl
    exact logged.conclude ⟨q, provides, root.produces due⟩
  | timedOut early late =>
    obtain ⟨q, provides, root⟩ := sourced.source
    exact sourced.conclude ⟨q, provides, root.produces_timedOut early late⟩

/-- References that have not begun bring in nothing. -/
theorem arrive (sourced : Sourced U 0 w) (fresh : ∀ s ∈ S, s.stage = .fresh)
    (used : ∀ s ∈ S, U s.reference) : Sourced U S w := by
  refine ⟨used, ?_, sourced.cache⟩
  intro s hs
  rw [fresh s hs]
  trivial

theorem wait {moment : Nat} (sourced : Sourced U S w)
    (due : ∀ s ∈ S, ∀ x ∈ Site.moments s.stage, moment ≤ x) :
    Sourced U S { w with now := moment } :=
  ⟨sourced.references, fun s hs => (sourced.stages s hs).wait (due s hs), sourced.cache⟩

theorem endures (U : Reference → Prop) :
    Task.Endures (fun S w => Balanced S w ∧ Sourced U S w)
      (fun S w => Balanced S w ∧ Sourced U S w) := by
  have books := Task.balanced_endures
  have same : ∀ {S w w'}, (Balanced S w ∧ Sourced U S w) → Balanced S w' → w.Grows w' →
      w'.now = w.now → w'.resolver.cache = w.resolver.cache → Balanced S w' ∧ Sourced U S w' :=
    fun h balanced grows now cache =>
      ⟨balanced, h.2.mono (fun _ hs => hs) (.of_grows grows) now cache⟩
  exact Task.Persists.endures
    { turn := fun S w f h => same h (h.1.plan f) (.of_same rfl rfl rfl) rfl rfl
      move := fun ⟨balanced, sourced⟩ move => ⟨balanced.move move, sourced.move balanced move⟩
      warn := fun S w e h => same h (h.1.log _) (.of_same rfl rfl rfl) rfl rfl
      drop := fun C here r stage w ⟨balanced, sourced⟩ =>
        ⟨balanced.surrender, sourced.mono (Multiset.subset_cons _ _)
          (.of_grows (.surrender w r here stage)) (Site.surrender_sameMoment r here stage w).1
          (Site.surrender_cache r here stage w)⟩
      wait := fun S w moment h later due =>
        ⟨books.wait S w moment h.1 later due, h.2.wait due⟩
      strike := fun S w h struck =>
        same h (books.strike S w h.1 struck) (.of_same rfl rfl rfl) rfl rfl }

/-- Where nothing is under way, neither clock nor context have a part in it. -/
theorem outside (sourced : Sourced U 0 w) (retains : w.Retains w')
    (cache : w'.resolver.cache = w.resolver.cache) : Sourced U 0 w' := by
  refine ⟨by simp, by simp, ?_⟩
  intro key o found
  rw [cache] at found
  obtain ⟨r, used, same, produced⟩ := sourced.cache key o found
  exact ⟨r, used, same, by rw [retains.policy]; exact produced.mono retains⟩

/-- Through a whole session, every outcome that is kept has been fetched from the provider
that its alias stands for. -/
theorem lasts (U : Reference → Prop) : Lasts U fun w => w.IsIdle ∧ Sourced U 0 w where
  run w request context t' w' h used runs := by
    obtain ⟨idle, sourced⟩ := h
    have fit := request.fit (idle.renew context) w.resolver.policy.isParallel
    have renewed : Sourced U 0 { w with context } :=
      sourced.outside (.of_grows (.of_same rfl rfl rfl)) rfl
    have before : Sourced U (request.task.sites w.resolver.policy.isParallel [])
        { w with context } :=
      renewed.arrive (request.untouched []) fun s hs =>
        used _ (Request.mem_references.mp ⟨s, hs, rfl⟩)
    have dropped := runs.dropped (endures U) ⟨fit.balanced, before⟩
    exact ⟨World.isIdle_iff.mpr dropped.1, dropped.2⟩
  outside w w' h registry resolver :=
    ⟨(World.isIdle_lasts U).outside w w' h.1 registry resolver,
      h.2.outside (.of_grows (.of_same (by rw [resolver]) (by rw [resolver]) (by rw [registry])))
        (by rw [resolver])⟩
  bind w name b h free :=
    ⟨(World.isIdle_lasts U).bind w name b h.1 free, h.2.outside (.bind w free b) rfl⟩
  build w name result h unbuilt :=
    ⟨(World.isIdle_lasts U).build w name result h.1 unbuilt,
      h.2.outside (.of_grows (.setBuilt unbuilt result)) rfl⟩

/-- As far as a run can tell, a resolver keeps nothing but what the registry that it begins
with may produce. -/
theorem rooted (sourced : Sourced U 0 w) : Rooted w.registry w.resolver.policy U 0 w := by
  refine ⟨rfl, .refl _, by simp, by simp, ?_⟩
  intro key o found
  obtain ⟨r, used, same, produced⟩ := sourced.cache key o found
  exact ⟨r, used, same, produced.produces⟩

end Sourced

/-! ### What is fetched again -/

/-- A world that has come from another one and has fetched nothing that was kept there. -/
def World.Spares (w w' : World) : Prop :=
  w.Adds (fun e => ∀ key ∈ e.startedKey?, Assoc.get? w.resolver.cache key = none) w'

namespace World.Spares

variable {w₀ w w' : World} {here : Address} {r : Reference} {stage : Stage} {C : Multiset Standing}

/-- Something happens that is not the start of a fetch. -/
theorem extend (spares : w₀.Spares w) {e : Event} (trace : w'.trace = e :: w.trace)
    (other : e.startedKey? = none) : w₀.Spares w' := by
  refine Adds.extend spares trace ?_
  simp [other]

/-- What is not kept by now has never been kept. -/
theorem start (spares : w₀.Spares w) (grows : w₀.Grows w)
    (trace : w'.trace = .fetchStarted r.alias r.requestPath w.now :: w.trace)
    (uncached : Assoc.get? w.resolver.cache r.key = none) : w₀.Spares w' := by
  refine Adds.extend spares trace ?_
  rintro key ⟨⟩
  refine Option.eq_none_iff_forall_not_mem.mpr ?_
  intro o found
  cases uncached.symm.trans (grows.outcomes _ _ found)

/-- Whoever fetches has found nothing under the key. -/
theorem move {p : Progress} (balanced : Balanced (⟨here, r, stage⟩ ::ₘ C) w)
    (grows : w₀.Grows w) (spares : w₀.Spares w) (move : Site.Move r here stage w p w') :
    w₀.Spares w' := by
  rcases move.trace_cases with silent | ⟨_, _, started⟩ | ⟨_, without, started⟩ | ended
  · exact Adds.onward spares silent
  · exact spares.extend started rfl
  · refine spares.start grows started ?_
    rcases without with uncached | ⟨q, rfl⟩
    · exact uncached
    · exact lacks_eq_true_iff.mp (balanced.outcome_atWork rfl).1
  · exact spares.extend ended rfl

/-- What is kept when a run begins is not fetched in it. -/
theorem endures (w₀ : World) :
    Task.Endures (fun S w => (Balanced S w ∧ w₀.Grows w) ∧ w₀.Spares w)
      (fun S w => (Balanced S w ∧ w₀.Grows w) ∧ w₀.Spares w) := by
  have grows := Task.grows_endures w₀
  exact Task.Persists.endures
    { turn := fun S w f h => ⟨grows.turn S w f h.1, h.2⟩
      move := fun h move => ⟨grows.move h.1 move, h.2.move h.1.1 h.1.2 move⟩
      warn := fun S w e h => ⟨grows.warn S w e h.1, h.2.extend rfl rfl⟩
      drop := fun C here r stage w h =>
        ⟨grows.drop C here r stage w h.1,
          Adds.onward h.2 (Site.surrender_trace r here stage w)⟩
      wait := fun S w moment h later due => ⟨grows.wait S w moment h.1 later due, h.2⟩
      strike := fun S w h struck => ⟨grows.strike S w h.1 struck, h.2⟩ }

end World.Spares

namespace World

/-- A run fetches only what is not kept yet. -/
theorem resolve_spares {w : World} (v : Value) (idle : w.IsIdle) :
    w.Spares (w.resolve v).2 := by
  have fit := idle.fit w.resolver.policy.isParallel (Task.Unstarted.ofValue v)
  obtain ⟨t', w', x, ran, -, runs⟩ := runTask_ends fit
  rw [resolve, ran]
  exact (runs.keeps_all (Spares.endures w) ⟨⟨fit.balanced, .refl w⟩, Adds.refl w _⟩).2

/-- What a run of a value with a used resolver comes to, whatever the clock and the context. -/
theorem resolve_sourced {U : Reference → Prop} {w : World} {v : Value} {answers : Answers}
    (idle : w.IsIdle) (sourced : Sourced U 0 w) (plain : ∀ r, U r → r.IsPlain)
    (used : ∀ r ∈ v.references, U r)
    (follows : w.registry.Follows w.resolver.policy.fetchTimeout answers) :
    (∃ x w', w.resolve v = (some x, w') ∧
      (w'.interruption? = none → x.toOption = v.eval answers w.resolver.policy.allowMissing)) ∧
    (w.context.IsQuiet → w.registry.IsCalm → (w.resolve v).2.interruption? = none) := by
  constructor
  · obtain ⟨x, w', ran, same, -⟩ := resolve_eval follows plain idle sourced.rooted used
    refine ⟨x, w', ran, fun live => same.resolve_right ?_⟩
    rintro ⟨-, interrupted⟩
    rw [live] at interrupted
    cases interrupted
  · intro quiet calm
    exact resolve_undisturbed calm quiet idle sourced.rooted used

/-- Whatever has been done with a resolver and its registry, whether or not it went well,
every outcome that the resolver keeps is the one that its key stands for, and stays there.
So resolving a value comes to what it stands for, and to the same as with a new resolver, unless
an interruption cuts one of the two short, and it fetches only what is not kept yet. -/
theorem resolve_reused (start : World) (idle : start.IsIdle) (fresh : start.resolver.cache = [])
    (ops : List Operation) (v : Value) (plain : ∀ op ∈ ops, ∀ r ∈ op.references, r.IsPlain)
    (plainly : ∀ r ∈ v.references, r.IsPlain) (answers : Answers)
    (follows : (start.after ops).registry.Follows start.resolver.policy.fetchTimeout answers) :
    (start.after ops).IsTruthful answers ∧
      (∀ later, (start.after ops).Retains (start.after (ops ++ later))) ∧
      ∀ used new : World, used.registry = (start.after ops).registry →
        used.resolver = (start.after ops).resolver →
        new.registry = (start.after ops).registry →
        new.resolver = { policy := start.resolver.policy } →
        (∀ t w, Task.Runs start.resolver.policy.isParallel (.ofValue v) used t w →
          w.IsTruthful answers ∧ used.Retains w) ∧
        used.Spares (used.resolve v).2 ∧
        (∃ x y, (used.resolve v).1 = some x ∧ (new.resolve v).1 = some y ∧
          ((used.resolve v).2.interruption? = none →
            x.toOption = v.eval answers start.resolver.policy.allowMissing ∧
            ((new.resolve v).2.interruption? = none → ∀ u, x = .ok u ↔ y = .ok u))) ∧
        (used.context.IsQuiet → new.context.IsQuiet → (start.after ops).registry.IsCalm →
          (used.resolve v).2.interruption? = none ∧ (new.resolve v).2.interruption? = none) := by
  have lasts := Sourced.lasts Reference.IsPlain
  obtain ⟨after, sourced⟩ :=
    lasts.after idle ⟨idle, .of_fresh start fresh _⟩ ops plain
  have policy := (Retains.after start idle ops).policy
  rw [← policy] at follows
  refine ⟨sourced.rooted.isTruthful follows fun _ h => h, ?_, ?_⟩
  · intro later
    rw [after_append]
    exact .after _ after later
  intro used new registry resolver registry' resolver'
  obtain ⟨idleUsed, sourcedUsed⟩ := lasts.outside _ used ⟨after, sourced⟩ registry resolver
  have idleNew : new.IsIdle :=
    ⟨by rw [registry', after.builders], by rw [resolver'], by rw [resolver'], by rw [resolver']⟩
  have sourcedNew := Sourced.of_fresh new (by rw [resolver']) Reference.IsPlain
  have followsUsed : used.registry.Follows used.resolver.policy.fetchTimeout answers := by
    rwa [registry, resolver]
  have followsNew : new.registry.Follows new.resolver.policy.fetchTimeout answers := by
    rw [registry', resolver']
    rwa [policy] at follows
  have lenient : used.resolver.policy.allowMissing = start.resolver.policy.allowMissing := by
    rw [resolver, policy]
  have lenient' : new.resolver.policy.allowMissing = start.resolver.policy.allowMissing := by
    rw [resolver']
  obtain ⟨⟨x, w, ran, value⟩, live⟩ :=
    resolve_sourced idleUsed sourcedUsed (fun _ h => h) plainly followsUsed
  obtain ⟨⟨y, w', ran', value'⟩, live'⟩ :=
    resolve_sourced idleNew sourcedNew (fun _ h => h) plainly followsNew
  refine ⟨?_, resolve_spares v idleUsed, ⟨x, y, by rw [ran], by rw [ran'], ?_⟩, ?_⟩
  · intro t w runs
    have fit := idleUsed.fit start.resolver.policy.isParallel (Task.Unstarted.ofValue v)
    have rooted := sourcedUsed.rooted.arrive_ofValue start.resolver.policy.isParallel plainly
    exact ⟨(runs.keeps_all (Rooted.endures _ _ _) rooted).isTruthful followsUsed fun _ h => h,
      .of_grows (runs.grows fit.balanced)⟩
  · rw [ran, ran']
    intro calm
    rw [lenient] at value
    refine ⟨value calm, fun calm' u => ?_⟩
    rw [← toOption_eq_some_iff, ← toOption_eq_some_iff, value calm, value' calm', lenient']
  · intro quiet quiet' calm
    exact ⟨live quiet (by rwa [registry]), live' quiet' (by rwa [registry'])⟩

/-- A value that has no provider at first, is then dropped while it is fetched, and is
cancelled in the end. -/
def stumbles (v : Value) : List Operation :=
  [.resolve (.value v) none, .install "app" (.echo 5), .abandon (.value v) 1,
    .resolve (.value v) (some 3), .renew {}]

theorem resolve_reused_stumbles :
    ((World.after {} (stumbles (.reference { «alias» := "app", path := ["host"] }))).resolve
        (.reference { «alias» := "app", path := ["host"] })).1
      = some (.ok (.string "host")) := by
  have plain : Reference.IsPlain { «alias» := "app", path := ["host"] } :=
    ⟨by decide, by decide⟩
  have echoes : (World.after {}
      (stumbles (.reference { «alias» := "app", path := ["host"] }))).registry
        = .only [] "app" (.echo 5) := rfl
  obtain ⟨-, -, reused⟩ := resolve_reused {} ⟨rfl, rfl, rfl, rfl⟩ rfl
    (stumbles (.reference { «alias» := "app", path := ["host"] }))
    (.reference { «alias» := "app", path := ["host"] })
    (by simp [stumbles, Operation.references, Request.references, Value.references, plain])
    (by simp [Value.references, plain]) _
    (by rw [echoes]; exact Registry.follows_only fun _ _ => rfl)
  obtain ⟨-, -, ⟨x, y, ran, ran', same⟩, -⟩ := reused _ { registry := .only [] "app" (.echo 5) }
    rfl rfl rfl rfl
  obtain rfl : y = .ok (.string "host") := Option.some.inj (ran'.symm.trans rfl)
  obtain ⟨-, same⟩ := same rfl
  rw [ran, (same rfl (.string "host")).mpr rfl]

end World

end LayeredConfig
