import LayeredConfig.Proofs.Provider.Looks
import LayeredConfig.Resolution.Access

/-!
What bindings come to over time.

An alias that is bound stays bound to the same: all that may still happen is that the
building of a declared provider ends, and how it ended is kept (`Binding.Becomes`). One
world carries on another if that is all that has become of the bindings, while the trace
has only grown (`World.Carries`). A world is truthful if its bindings agree with the
initialisations in its trace: each one had the configuration that its alias is declared
with, and what is kept of a building is what an initialisation came to
(`World.Truthful`).

`Registry.register_cases` and `Registry.insert_cases` say what may become of a registry that is
bound anew, and `World.Truthful.build`, `World.Truthful.declare` and `World.Truthful.install` that
each way to change a binding keeps a world truthful.
-/

namespace LayeredConfig

/-! ### One binding -/

/-- What may become of a binding: nothing else, or the building of a provider ends. -/
inductive Binding.Becomes : Binding → Binding → Prop where
  | same (b : Binding) : Becomes b b
  | built (providerType : String) (config : Fields) (result : Except SetupError Provider) :
      Becomes (.declared providerType config none) (.declared providerType config (some result))

namespace Binding.Becomes

variable {b b' b'' : Binding} {providerType : String} {config : Fields}

theorem trans (first : b.Becomes b') (next : b'.Becomes b'') : b.Becomes b'' := by
  cases first with
  | same => exact next
  | built => cases next with | same => exact .built _ _ _

theorem installed {p : Provider} (becomes : (Binding.installed p).Becomes b) :
    b = .installed p := by
  cases becomes
  rfl

theorem declared {built : Option (Except SetupError Provider)}
    (becomes : (Binding.declared providerType config built).Becomes b) :
    ∃ built', b = .declared providerType config built' := by
  cases becomes with
  | same => exact ⟨built, rfl⟩
  | built => exact ⟨_, rfl⟩

theorem finished {result : Except SetupError Provider}
    (becomes : (Binding.declared providerType config (some result)).Becomes b) :
    b = .declared providerType config (some result) := by
  cases becomes
  rfl

end Binding.Becomes

/-! ### Binding an alias -/

namespace Registry

variable {g : Registry}

/-- A registry in which one more alias is bound. -/
def bind (g : Registry) (name : String) (b : Binding) : Registry :=
  { g with bindings := Assoc.insert g.bindings name b }

theorem get?_bind (g : Registry) (name : String) (b : Binding) (other : String) :
    Assoc.get? (g.bind name b).bindings other
      = if name = other then some b else Assoc.get? g.bindings other :=
  Assoc.get?_insert ..

/-- A provider is declared if its type is known and the alias is free; nothing changes
otherwise. -/
theorem register_cases (g : Registry) (name providerType : String) (config : Fields) :
    (∃ t, Assoc.get? g.types providerType = some t ∧ Assoc.get? g.bindings name = none ∧
      g.register name providerType config
        = (.ok true, g.bind name (.declared providerType config none))) ∨
    ((Assoc.get? g.types providerType = none ∨ Assoc.get? g.bindings name ≠ none) ∧
      (∀ accepted, (g.register name providerType config).1 = .ok accepted → accepted = false) ∧
      (g.register name providerType config).2 = g) := by
  unfold register Assoc.contains
  cases known : Assoc.get? g.types providerType with
  | none => exact .inr ⟨.inl rfl, by simp, by simp⟩
  | some t =>
    cases bound : Assoc.get? g.bindings name with
    | none => exact .inl ⟨t, rfl, rfl, rfl⟩
    | some b => exact .inr ⟨.inr (by simp), by simp, by simp⟩

/-- A provider is installed if the alias is free; nothing changes otherwise. -/
theorem insert_cases (g : Registry) (name : String) (p : Provider) :
    (Assoc.get? g.bindings name = none ∧ g.insert name p = (true, g.bind name (.installed p))) ∨
    (Assoc.get? g.bindings name ≠ none ∧ g.insert name p = (false, g)) := by
  unfold insert Assoc.contains
  cases bound : Assoc.get? g.bindings name with
  | none => exact .inl ⟨rfl, rfl⟩
  | some b => exact .inr ⟨by simp, rfl⟩

end Registry

/-! ### All bindings -/

/-- Whether a provider is declared for an alias with a configuration, be it built or not. -/
def Registry.Declares (g : Registry) (name : String) (config : Fields) : Prop :=
  ∃ providerType built, Assoc.get? g.bindings name = some (.declared providerType config built)

/-- A world that carries on another one: types are the same, what is bound stays so, and
nothing that has happened is forgotten. -/
structure World.Carries (w w' : World) : Prop where
  types : w'.registry.types = w.registry.types
  bindings : ∀ name b, Assoc.get? w.registry.bindings name = some b →
    ∃ b', Assoc.get? w'.registry.bindings name = some b' ∧ b.Becomes b'
  trace : w.trace <:+ w'.trace

namespace World.Carries

variable {w w' w'' : World} {name : String}

theorem trans (first : w.Carries w') (next : w'.Carries w'') : w.Carries w'' where
  types := next.types.trans first.types
  bindings name b bound := by
    obtain ⟨b', bound', becomes⟩ := first.bindings name b bound
    obtain ⟨b'', bound'', becomes'⟩ := next.bindings name b' bound'
    exact ⟨b'', bound'', becomes.trans becomes'⟩
  trace := first.trace.trans next.trace

theorem of_calm (calm : w.Calm w') : w.Carries w' where
  types := calm.types
  bindings _ b bound := ⟨b, by rwa [calm.bindings], .same b⟩
  trace := by
    obtain ⟨events, trace, -⟩ := calm.quiet
    exact ⟨events, trace.symm⟩

theorem refl (w : World) : w.Carries w := of_calm (.refl w)

/-- A declaration stays. -/
theorem declares (carries : w.Carries w') {config : Fields}
    (declared : w.registry.Declares name config) : w'.registry.Declares name config := by
  obtain ⟨providerType, built, bound⟩ := declared
  obtain ⟨b, bound, becomes⟩ := carries.bindings name _ bound
  obtain ⟨built, rfl⟩ := becomes.declared
  exact ⟨providerType, built, bound⟩

/-- A provider that an alias stands for stays the same. -/
theorem provides (carries : w.Carries w') {p : Provider} (provides : w.registry.Provides name p) :
    w'.registry.Provides name p := by
  rcases provides with installed | ⟨providerType, config, built⟩
  · obtain ⟨b, bound, becomes⟩ := carries.bindings name _ installed
    exact .inl (becomes.installed ▸ bound)
  · obtain ⟨b, bound, becomes⟩ := carries.bindings name _ built
    exact .inr ⟨providerType, config, becomes.finished ▸ bound⟩

theorem log (w : World) (e : Event) : w.Carries (w.log e) where
  types := rfl
  bindings _ b bound := ⟨b, bound, .same b⟩
  trace := List.suffix_cons e w.trace

theorem setBuilt (unbuilt : w.registry.isUnbuilt name = true)
    (result : Except SetupError Provider) :
    w.Carries (w.updateRegistry (·.setBuilt name result)) where
  types := w.registry.setBuilt_types name result
  bindings other b bound := by
    obtain ⟨providerType, config, found⟩ := isUnbuilt_iff.mp unbuilt
    by_cases same : name = other
    · subst same
      rw [found] at bound
      cases bound
      exact ⟨_, Site.get?_setBuilt found result, .built _ _ _⟩
    · refine ⟨b, ?_, .same b⟩
      simpa [Registry.setBuilt, found, Assoc.get?_insert, same] using bound
  trace := List.suffix_refl w.trace

/-- A provider is built. -/
theorem of_builds (builds : w.Builds name w') : w.Carries w' := by
  obtain ⟨providerType, config, t, unbuilt, known, calm⟩ := builds
  refine (World.Carries.log w _).trans (trans (setBuilt ?_ _) (.of_calm calm))
  exact isUnbuilt_iff.mpr ⟨_, _, unbuilt⟩

/-- A free alias is bound. -/
theorem bind (w : World) (free : Assoc.get? w.registry.bindings name = none) (b : Binding) :
    w.Carries (w.updateRegistry (·.bind name b)) where
  types := rfl
  bindings other b' bound := by
    refine ⟨b', ?_, .same b'⟩
    have different : name ≠ other := by
      rintro rfl
      rw [free] at bound
      cases bound
    simpa [Registry.get?_bind, different] using bound
  trace := List.suffix_refl w.trace

end World.Carries

/-! ### Initialisations -/

namespace World

/-- An initialisation for an alias has started, with the configuration that the alias is
declared with, and this is what its call comes to. -/
def HasInit (w : World) (name : String) (outcome : Except Failure Provider) : Prop :=
  ∃ providerType config built t before time,
    Assoc.get? w.registry.bindings name = some (.declared providerType config built) ∧
    Assoc.get? w.registry.types providerType = some t ∧
    .initStarted name config time :: before <:+ w.trace ∧
    outcome = (t.init before name config).outcome

variable {w : World}

theorem HasInit.carry {w' : World} {name : String} {outcome : Except Failure Provider}
    (hasInit : w.HasInit name outcome) (carries : w.Carries w') : w'.HasInit name outcome := by
  obtain ⟨providerType, config, built, t, before, time, bound, known, started, same⟩ := hasInit
  obtain ⟨b, bound, becomes⟩ := carries.bindings name _ bound
  obtain ⟨built, rfl⟩ := becomes.declared
  exact ⟨providerType, config, built, t, before, time, bound, by rwa [carries.types],
    started.trans carries.trace, same⟩

theorem HasInit.declares {name : String} {outcome : Except Failure Provider}
    (hasInit : w.HasInit name outcome) : ∃ config, w.registry.Declares name config := by
  obtain ⟨providerType, config, built, _, _, _, bound, -⟩ := hasInit
  exact ⟨config, providerType, built, bound⟩

/-- An initialisation that has just started, with the call behind it. -/
theorem hasInit_log {name providerType : String} {config : Fields} {t : ProviderType}
    (unbuilt : Assoc.get? w.registry.bindings name = some (.declared providerType config none))
    (known : Assoc.get? w.registry.types providerType = some t) (time : Nat) :
    (w.log (.initStarted name config time)).HasInit name (t.init w.trace name config).outcome :=
  ⟨providerType, config, none, t, w.trace, time, unbuilt, known, List.suffix_refl _, rfl⟩

/-- The bindings of a world agree with the initialisations in its trace. -/
structure Truthful (w : World) : Prop where
  /-- Nothing is declared with a type that is not known. -/
  known : ∀ name providerType config built,
    Assoc.get? w.registry.bindings name = some (.declared providerType config built) →
      ∃ t, Assoc.get? w.registry.types providerType = some t
  /-- Every initialisation has the configuration that its alias is declared with. -/
  started : ∀ name config time, .initStarted name config time ∈ w.trace →
    w.registry.Declares name config
  /-- What is kept of a building is what an initialisation came to. -/
  finished : ∀ name providerType config result,
    Assoc.get? w.registry.bindings name = some (.declared providerType config (some result)) →
      ∃ outcome, w.HasInit name outcome ∧ result = outcome.mapError (.init name)

namespace Truthful

variable {w w' : World} {name : String}

/-- Nothing is bound and no building ends, and all that starts is declared. -/
theorem onward (truthful : w.Truthful) (carries : w.Carries w')
    (bindings : w'.registry.bindings = w.registry.bindings)
    (started : ∀ name config time, .initStarted name config time ∈ w'.trace →
      .initStarted name config time ∈ w.trace ∨ w.registry.Declares name config) :
    w'.Truthful where
  known name providerType config built bound := by
    rw [bindings] at bound
    rw [carries.types]
    exact truthful.known name providerType config built bound
  started name config time mem :=
    carries.declares ((started name config time mem).elim (truthful.started name config time) id)
  finished name providerType config result bound := by
    rw [bindings] at bound
    obtain ⟨outcome, hasInit, same⟩ := truthful.finished name providerType config result bound
    exact ⟨outcome, hasInit.carry carries, same⟩

theorem calm (truthful : w.Truthful) (calm : w.Calm w') : w'.Truthful := by
  refine truthful.onward (.of_calm calm) calm.bindings ?_
  intro name config time mem
  obtain ⟨events, trace, quiet⟩ := calm.quiet
  rw [trace, List.mem_append] at mem
  rcases mem with new | old
  · cases quiet _ new
  · exact .inl old

/-- An initialisation starts. -/
theorem logInit (truthful : w.Truthful) {config : Fields}
    (declared : w.registry.Declares name config) (time : Nat) :
    (w.log (.initStarted name config time)).Truthful := by
  refine truthful.onward (.log w _) rfl ?_
  intro other config' time' mem
  rcases List.mem_cons.mp mem with same | old
  · cases same
    exact .inr declared
  · exact .inl old

/-- One alias is bound to something else, which must be true in its own right. -/
theorem rebind (truthful : w.Truthful) (carries : w.Carries w') (trace : w'.trace = w.trace)
    {b : Binding} (bindings : w'.registry.bindings = Assoc.insert w.registry.bindings name b)
    (known : ∀ providerType config built, b = .declared providerType config built →
      ∃ t, Assoc.get? w.registry.types providerType = some t)
    (finished : ∀ providerType config result, b = .declared providerType config (some result) →
      ∃ outcome, w.HasInit name outcome ∧ result = outcome.mapError (.init name)) :
    w'.Truthful where
  known other providerType config built bound := by
    rw [bindings, Assoc.get?_insert] at bound
    rw [carries.types]
    split at bound
    · exact known _ _ _ (Option.some.inj bound)
    · exact truthful.known _ _ _ _ bound
  started other config time mem := by
    rw [trace] at mem
    exact carries.declares (truthful.started other config time mem)
  finished other providerType config result bound := by
    rw [bindings, Assoc.get?_insert] at bound
    split at bound
    · rename_i same
      obtain ⟨outcome, hasInit, came⟩ := finished _ _ _ (Option.some.inj bound)
      exact ⟨outcome, same ▸ hasInit.carry carries, same ▸ came⟩
    · obtain ⟨outcome, hasInit, came⟩ := truthful.finished _ _ _ _ bound
      exact ⟨outcome, hasInit.carry carries, came⟩

/-- The building of a provider ends with what an initialisation came to. -/
theorem setBuilt (truthful : w.Truthful) (unbuilt : w.registry.isUnbuilt name = true)
    {outcome : Except Failure Provider} (hasInit : w.HasInit name outcome) :
    (w.updateRegistry (·.setBuilt name (outcome.mapError (.init name)))).Truthful := by
  obtain ⟨providerType, config, found⟩ := isUnbuilt_iff.mp unbuilt
  refine truthful.rebind (.setBuilt unbuilt _) rfl (by simp [Registry.setBuilt, found]; rfl)
    ?_ ?_
  · rintro _ _ _ ⟨⟩
    exact truthful.known _ _ _ _ found
  · rintro _ _ _ ⟨⟩
    exact ⟨outcome, hasInit, rfl⟩

/-- A provider is built. -/
theorem build (truthful : w.Truthful) (builds : w.Builds name w') : w'.Truthful := by
  obtain ⟨providerType, config, t, unbuilt, known, calm⟩ := builds
  have started := truthful.logInit ⟨_, _, unbuilt⟩ w.now
  exact (started.setBuilt (isUnbuilt_iff.mpr ⟨_, _, unbuilt⟩)
    (hasInit_log unbuilt known _)).calm calm

/-- A free alias is declared with a type that is known. -/
theorem declare (truthful : w.Truthful) (free : Assoc.get? w.registry.bindings name = none)
    {providerType : String} {t : ProviderType}
    (known : Assoc.get? w.registry.types providerType = some t) (config : Fields) :
    (w.updateRegistry (·.bind name (.declared providerType config none))).Truthful := by
  refine truthful.rebind (.bind w free _) rfl rfl ?_ ?_
  · rintro _ _ _ ⟨⟩
    exact ⟨t, known⟩
  · rintro _ _ _ ⟨⟩

/-- A provider is installed under a free alias. -/
theorem install (truthful : w.Truthful) (free : Assoc.get? w.registry.bindings name = none)
    (p : Provider) : (w.updateRegistry (·.bind name (.installed p))).Truthful :=
  truthful.rebind (.bind w free _) rfl rfl (fun _ _ _ same => by cases same)
    fun _ _ _ same => by cases same

end Truthful

/-! ### Asking outside a run -/

/-- A call that is awaited takes time, and may cancel the context. -/
theorem await_same {α : Type} (w : World) (call : Call α) :
    (w.await call).2.registry = w.registry ∧ (w.await call).2.resolver = w.resolver ∧
      (w.await call).2.trace = w.trace := by
  simp only [await, begin]
  split <;> exact ⟨rfl, rfl, rfl⟩

/-- Asking a provider for data builds none. -/
theorem fetch_calm (w : World) (p : Provider) (name : String) (path : List String) :
    w.Calm (w.fetch p name path).2 ∧ (w.fetch p name path).2.registry = w.registry ∧
      (w.fetch p name path).2.resolver = w.resolver := by
  obtain ⟨registry, resolver, trace⟩ :=
    await_same (w.log (.fetchStarted name path w.now)) (p.fetch w.trace path)
  have started : w.Calm
      ((w.log (.fetchStarted name path w.now)).await (p.fetch w.trace path)).2 :=
    (Calm.log w rfl).trans (.of_same registry trace)
  simp only [fetch]
  split
  · exact ⟨started, registry, resolver⟩
  · exact ⟨started.trans (.log _ rfl), registry, resolver⟩

/-- Asking for a provider outside a run tells what is bound already, or else builds the
provider. -/
theorem obtainProvider_cases (truthful : w.Truthful) (name : String) :
    (w.registry.isUnbuilt name = false ∧ (w.obtainProvider name).2 = w) ∨
      (w.registry.isUnbuilt name = true ∧ w.Builds name (w.obtainProvider name).2 ∧
        (∃ result, (w.obtainProvider name).1 = result.map some ∧
          (w.obtainProvider name).2.registry = w.registry.setBuilt name result) ∧
        (w.obtainProvider name).2.resolver = w.resolver) := by
  unfold obtainProvider
  split
  · rename_i free
    exact .inl ⟨by simp [Registry.isUnbuilt, free], rfl⟩
  · rename_i installed
    exact .inl ⟨by simp [Registry.isUnbuilt, installed], rfl⟩
  · rename_i built
    exact .inl ⟨by simp [Registry.isUnbuilt, built], rfl⟩
  · rename_i providerType config unbuilt
    obtain ⟨t, known⟩ := truthful.known _ _ _ _ unbuilt
    obtain ⟨registry, resolver, trace⟩ :=
      await_same (w.log (.initStarted name config w.now)) (t.init w.trace name config)
    simp only [buildProvider, known]
    have same : ((w.log (.initStarted name config w.now)).await
        (t.init w.trace name config)).2.registry = w.registry := registry
    refine .inr ⟨isUnbuilt_iff.mpr ⟨_, _, unbuilt⟩, ⟨providerType, config, t, unbuilt, known, ?_⟩,
      ⟨(t.init w.trace name config).outcome.mapError (.init name), rfl, ?_⟩, resolver⟩
    · exact Calm.setBuilt (.of_same registry trace) _ _
    · simp only [updateRegistry_registry, same]
      rfl

end World

end LayeredConfig
