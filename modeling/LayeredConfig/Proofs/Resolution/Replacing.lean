import LayeredConfig.Proofs.Resolution.Answers

/-!
# Other providers in place of those of a registry

`Registry.mapProviders` puts another provider in the place of each one that a registry has or may
come to have, and leaves aliases, types and configurations alone. What may then be asked for is
what could be before, with the other provider in its place (`Registry.MayAnswer.of_mapProviders`).
So if data followed answers, it follows other answers now, which say for every alias what the
other provider makes of the data (`Registry.Follows.mapProviders`).
-/

namespace LayeredConfig

/-- A type that initialises other providers. -/
def ProviderType.mapProvider (f : Provider → Provider) (t : ProviderType) : ProviderType where
  init trace name config :=
    { t.init trace name config with outcome := (t.init trace name config).outcome.map f }

def Binding.mapProvider (f : Provider → Provider) : Binding → Binding
  | .installed p => .installed (f p)
  | .declared providerType config built => .declared providerType config (built.map (·.map f))

/-- A registry with other providers. -/
def Registry.mapProviders (f : Provider → Provider) (g : Registry) : Registry :=
  { g with
    types := Assoc.mapValues (ProviderType.mapProvider f) g.types
    bindings := Assoc.mapValues (Binding.mapProvider f) g.bindings }

variable {f : Provider → Provider} {limit limit' : Option Nat}

namespace Binding

variable {b : Binding} {providerType : String} {config : Fields}

theorem mapProvider_eq_installed_iff {p : Provider} :
    b.mapProvider f = .installed p ↔ ∃ before, b = .installed before ∧ f before = p := by
  cases b <;> simp [mapProvider]

theorem mapProvider_eq_unbuilt_iff :
    b.mapProvider f = .declared providerType config none ↔
      b = .declared providerType config none := by
  cases b <;> simp [mapProvider]

theorem mapProvider_eq_built_iff {result : Except SetupError Provider} :
    b.mapProvider f = .declared providerType config (some result) ↔
      ∃ before, b = .declared providerType config (some before) ∧ before.map f = result := by
  cases b with
  | installed p => simp [mapProvider]
  | declared => simp [mapProvider, and_assoc]

end Binding

/-- If a provider makes `h` of the data of another one, it is what an answer says where the other
one was, provided that `h` is applied to the answer too. -/
theorem Answer.Admits.map {answer : Answer} {result : Except SetupError Provider}
    {h : (List String → Outcome) → List String → Outcome} (admits : answer.Admits limit result)
    (same : ∀ p data, result = .ok p →
      (∀ trace path, (p.fetch trace path).verdict limit = data path) →
        ∀ trace path, ((f p).fetch trace path).verdict limit' = h data path) :
    Answer.Admits limit' (Except.map h answer) (result.map f) := by
  cases result with
  | error e =>
    obtain rfl : answer = .error e := admits
    rfl
  | ok p =>
    obtain ⟨data, rfl, follows⟩ := admits
    exact ⟨h data, rfl, same p data rfl follows⟩

namespace Registry

variable {g : Registry} {name : String}

theorem exists_binding_of_mapProviders {b : Binding}
    (bound : Assoc.get? (g.mapProviders f).bindings name = some b) :
    ∃ before, Assoc.get? g.bindings name = some before ∧ before.mapProvider f = b := by
  rw [mapProviders, Assoc.get?_mapValues] at bound
  exact Option.map_eq_some_iff.mp bound

/-- What a registry with other providers may answer is what it might with its own, up to the
provider. -/
theorem MayAnswer.of_mapProviders {result : Except SetupError Provider}
    (answer : (g.mapProviders f).MayAnswer name result) :
    ∃ before, g.MayAnswer name before ∧ result = before.map f := by
  cases answer with
  | installed bound =>
    obtain ⟨b, before, mapped⟩ := exists_binding_of_mapProviders bound
    obtain ⟨p, rfl, rfl⟩ := Binding.mapProvider_eq_installed_iff.mp mapped
    exact ⟨_, .installed before, rfl⟩
  | built bound =>
    obtain ⟨b, before, mapped⟩ := exists_binding_of_mapProviders bound
    obtain ⟨result, rfl, rfl⟩ := Binding.mapProvider_eq_built_iff.mp mapped
    exact ⟨_, .built before, rfl⟩
  | unknownType bound unknown =>
    obtain ⟨b, before, mapped⟩ := exists_binding_of_mapProviders bound
    obtain rfl := Binding.mapProvider_eq_unbuilt_iff.mp mapped
    rw [mapProviders, Assoc.get?_mapValues, Option.map_eq_none_iff] at unknown
    exact ⟨_, .unknownType before unknown, rfl⟩
  | init bound known trace =>
    obtain ⟨b, before, mapped⟩ := exists_binding_of_mapProviders bound
    obtain rfl := Binding.mapProvider_eq_unbuilt_iff.mp mapped
    rw [mapProviders, Assoc.get?_mapValues] at known
    obtain ⟨t, there, rfl⟩ := Option.map_eq_some_iff.mp known
    refine ⟨_, .init before there trace, ?_⟩
    dsimp only [ProviderType.mapProvider]
    cases (t.init trace name _).outcome <;> rfl

/-- The data of other providers follows the answers that say for each alias what they make of
its data. -/
theorem Follows.mapProviders {answers : Answers}
    {h : String → (List String → Outcome) → List String → Outcome}
    (follows : g.Follows limit answers)
    (same : ∀ name p data, g.MayAnswer name (.ok p) →
      (∀ trace path, (p.fetch trace path).verdict limit = data path) →
        ∀ trace path, ((f p).fetch trace path).verdict limit' = h name data path) :
    (g.mapProviders f).Follows limit' fun name => (answers name).map (Except.map (h name)) := by
  constructor
  · intro name free
    rw [Registry.mapProviders, Assoc.get?_mapValues, Option.map_eq_none_iff] at free
    rw [follows.unbound name free]
    rfl
  · intro name result answer
    obtain ⟨before, answer', rfl⟩ := answer.of_mapProviders
    obtain ⟨known, found, admits⟩ := follows.admits name before answer'
    refine ⟨_, by rw [found]; rfl, admits.map fun p data provided => ?_⟩
    exact same name p data (provided ▸ answer')

end Registry

end LayeredConfig
