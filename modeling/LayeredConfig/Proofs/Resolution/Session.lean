import LayeredConfig.Proofs.Resolution.Fetches
import LayeredConfig.Resolution.Access

/-!
Sessions.

A resolver and its registry are used again and again: values are resolved, to the end or
until the caller loses patience, sources are declared, providers are installed and asked
for, time passes and contexts come and go. `Operation` lists what may be done, and
`World.after` does it. `Lasts` collects what a property of worlds needs so that every
operation keeps it (`Lasts.after`). Two properties always last: between operations
nothing is under way (`World.IsIdle.after`), and outcomes and providers that are there
stay there (`World.Retains.after`).
-/

namespace LayeredConfig

/-! ### Operations -/

/-- What is to be resolved: a value, or the values of a plain map. -/
inductive Request where
  | value (v : Value)
  | map (fields : Fields)

namespace Request

def task : Request → Task
  | .value v => .ofValue v
  | .map fields => .ofMap fields

def references : Request → List Reference
  | .value v => v.references
  | .map fields => Value.referencesOfFields fields

variable {parallel : Bool} {w : World}

/-- A request finds an idle world in agreement with it. -/
theorem fit (request : Request) (idle : w.IsIdle) (parallel : Bool) :
    request.task.Fit parallel w := by
  cases request with
  | value v => exact idle.fit parallel (.ofValue v)
  | map fields => exact idle.fit_ofMap parallel fields

theorem untouched (request : Request) : request.task.Untouched parallel := by
  cases request with
  | value v => exact (Task.Unstarted.ofValue v).untouched
  | map fields =>
    rcases Task.ofMap_cases fields with ⟨same, -⟩ | unstarted
    · rw [task, same]
      simp [Task.Untouched]
    · exact unstarted.untouched

theorem mem_references {request : Request} {here : Address} {r : Reference} :
    (∃ s ∈ request.task.sites parallel here, s.reference = r) ↔ r ∈ request.references := by
  cases request with
  | value v => exact Task.mem_references
  | map fields => exact Task.mem_references_ofMap

end Request

/-- What may be done with a resolver and its registry. -/
inductive Operation where
  /-- Resolve, and have the context cancelled after a time if that is still going on. -/
  | resolve (request : Request) (cancelAfter : Option Nat)
  /-- Begin to resolve, and drop all that is under way after so many looks at it. -/
  | abandon (request : Request) (looks : Nat)
  | register («alias» providerType : String) (config : Fields)
  | install («alias» : String) (p : Provider)
  /-- Ask for the provider of an alias. -/
  | obtain («alias» : String)
  /-- Ask the provider of an alias for the data at a path, past the resolver. -/
  | ask («alias» : String) (path : List String)
  /-- Go on with another context. -/
  | renew (context : Context)
  | pass (time : Nat)

namespace Operation

/-- The references that are resolved. -/
def references : Operation → List Reference
  | .resolve request _ => request.references
  | .abandon request _ => request.references
  | _ => []

def perform (w : World) : Operation → World
  | .resolve request cancelAfter => (w.cancelAfter cancelAfter (·.runTask request.task)).2
  | .abandon request looks =>
    { (request.task.run w.resolver.policy.isParallel looks w).2 with agenda := {} }
  | .register name providerType config =>
    w.updateRegistry fun g => (g.register name providerType config).2
  | .install name p => w.updateRegistry fun g => (g.insert name p).2
  | .obtain name => (w.obtainProvider name).2
  | .ask name path =>
    match w.obtainProvider name with
    | (.ok (some p), w) => (w.fetch p name path).2
    | (_, w) => w
  | .renew context => { w with context }
  | .pass time => w.advanceTo (w.now + time)

end Operation

/-- The world after some operations, one after the other. -/
def World.after (w : World) (ops : List Operation) : World := ops.foldl Operation.perform w

theorem World.after_append (w : World) (ops later : List Operation) :
    w.after (ops ++ later) = (w.after ops).after later :=
  List.foldl_append

/-! ### What operations keep -/

/-- What a property of worlds needs so that every operation keeps it that resolves nothing but
references in `U`. -/
structure Lasts (U : Reference → Prop) (P : World → Prop) : Prop where
  /-- A run gets somewhere, and what is still under way there is dropped. -/
  run : ∀ w (request : Request) context t' w', P w → (∀ r ∈ request.references, U r) →
    Task.Runs w.resolver.policy.isParallel request.task { w with context } t' w' →
    P (t'.release w.resolver.policy.isParallel [] w')
  /-- Something happens that neither resolver nor registry notice. -/
  outside : ∀ w w', P w → w'.registry = w.registry → w'.resolver = w.resolver → P w'
  bind : ∀ w name b, P w → Assoc.contains w.registry.bindings name = false →
    P (w.updateRegistry fun g => { g with bindings := Assoc.insert g.bindings name b })
  build : ∀ w name result, P w → w.registry.isUnbuilt name = true →
    P (w.updateRegistry (·.setBuilt name result))

/-- Building a provider tells nobody. -/
theorem World.buildProvider_same (w : World) (name providerType : String) (config : Fields) :
    (w.buildProvider name providerType config).2.registry = w.registry ∧
      (w.buildProvider name providerType config).2.resolver = w.resolver := by
  unfold buildProvider
  split
  · exact ⟨rfl, rfl⟩
  · simp only [await, begin]
    split <;> exact ⟨rfl, rfl⟩

theorem World.fetch_same (w : World) (p : Provider) (name : String) (path : List String) :
    (w.fetch p name path).2.registry = w.registry ∧
      (w.fetch p name path).2.resolver = w.resolver := by
  simp only [fetch, await, begin]
  split <;> split <;> exact ⟨rfl, rfl⟩

namespace Lasts

variable {U : Reference → Prop} {P : World → Prop} {w : World}

theorem resolve (lasts : Lasts U P) (idle : w.IsIdle) (holds : P w) {request : Request}
    (used : ∀ r ∈ request.references, U r) (context : Context) :
    P (World.runTask { w with context } request.task).2 := by
  obtain ⟨t', w', x, ran, result, runs⟩ := World.runTask_ends (request.fit (idle.renew context) _)
  have dropped := lasts.run w request context t' w' holds used runs
  rw [Task.release_of_isOver (Task.isOver_of_result result)] at dropped
  rw [ran]
  exact lasts.outside w' _ dropped rfl rfl

theorem obtain (lasts : Lasts U P) (holds : P w) (name : String) : P (w.obtainProvider name).2 := by
  unfold World.obtainProvider
  split
  · exact holds
  · exact holds
  · exact holds
  · rename_i providerType config unbuilt
    have isUnbuilt := isUnbuilt_iff.mpr ⟨providerType, config, unbuilt⟩
    obtain ⟨registry, resolver⟩ := World.buildProvider_same w name providerType config
    generalize w.buildProvider name providerType config = built at registry resolver
    obtain ⟨result, w'⟩ := built
    exact lasts.build w' name result (lasts.outside w w' holds registry resolver)
      (by rwa [registry])

theorem register (lasts : Lasts U P) (holds : P w) (name providerType : String)
    (config : Fields) :
    P (w.updateRegistry fun g => (g.register name providerType config).2) := by
  unfold Registry.register
  by_cases unknown : Assoc.contains w.registry.types providerType = true
  · cases free : Assoc.contains w.registry.bindings name with
    | true => simpa [World.updateRegistry, unknown, free] using holds
    | false => simpa [World.updateRegistry, unknown, free] using lasts.bind w name _ holds free
  · simpa [World.updateRegistry, unknown] using holds

theorem install (lasts : Lasts U P) (holds : P w) (name : String) (p : Provider) :
    P (w.updateRegistry fun g => (g.insert name p).2) := by
  unfold Registry.insert
  cases free : Assoc.contains w.registry.bindings name with
  | true => simpa [World.updateRegistry, free] using holds
  | false => simpa [World.updateRegistry, free] using lasts.bind w name _ holds free

theorem perform (lasts : Lasts U P) (idle : w.IsIdle) (holds : P w) {op : Operation}
    (used : ∀ r ∈ op.references, U r) : P (op.perform w) := by
  cases op with
  | resolve request cancelAfter =>
    exact lasts.outside _ _ (lasts.resolve idle holds used _) rfl rfl
  | abandon request looks =>
    have fit := request.fit idle w.resolver.policy.isParallel
    obtain ⟨t', w', ran, steps, -⟩ := Task.run_steps looks fit
    have dropped := lasts.run w request w.context t' w' holds used (steps.runs_and_fit fit).1
    apply lasts.outside _ _ dropped
    · simp [Operation.perform, ran]
    · simp [Operation.perform, ran]
  | register name providerType config => exact lasts.register holds name providerType config
  | install name p => exact lasts.install holds name p
  | obtain name => exact lasts.obtain holds name
  | ask name path =>
    have obtained := lasts.obtain holds name
    simp only [Operation.perform]
    split
    · rename_i p w' found
      rw [found] at obtained
      obtain ⟨registry, resolver⟩ := World.fetch_same w' p name path
      exact lasts.outside w' _ obtained registry resolver
    · rename_i found
      rwa [found] at obtained
  | renew context => exact lasts.outside w _ holds rfl rfl
  | pass time =>
    apply lasts.outside w _ holds
    · simp only [Operation.perform, World.advanceTo]
      split <;> rfl
    · simp only [Operation.perform, World.advanceTo]
      split <;> rfl

end Lasts

/-- What every step of a run keeps holds of what is left once all is dropped. -/
theorem Task.Runs.dropped {I : Multiset Standing → World → Prop} {parallel : Bool} {t t' : Task}
    {w w' : World} (endures : Task.Endures I I) (runs : Task.Runs parallel t w t' w')
    (before : I (t.sites parallel []) w) : I 0 (t'.release parallel [] w') := by
  have after := runs.keeps_all endures before
  exact Task.release_drops endures.turnDropped endures.drop t' [] 0 w' (by rwa [zero_add])

namespace World

variable {w : World}

/-- Every operation leaves nothing under way. -/
theorem isIdle_lasts (U : Reference → Prop) : Lasts U IsIdle where
  run w request context t' w' idle used runs :=
    isIdle_iff.mpr
      (runs.dropped Task.balanced_endures (request.fit (idle.renew context) _).balanced)
  outside w w' idle registry resolver :=
    ⟨by rw [registry, idle.builders], by rw [resolver, idle.outcomes],
      by rw [resolver, idle.queue], by rw [resolver, idle.permits]⟩
  bind w name b idle free := ⟨idle.builders, idle.outcomes, idle.queue, idle.permits⟩
  build w name result idle unbuilt := by
    refine ⟨?_, idle.outcomes, idle.queue, idle.permits⟩
    rw [updateRegistry_registry, setBuilt_lines unbuilt, idle.builders]
    rfl

theorem IsIdle.perform (idle : w.IsIdle) (op : Operation) : (op.perform w).IsIdle :=
  (isIdle_lasts fun _ => True).perform idle idle fun _ _ => trivial

theorem IsIdle.after (idle : w.IsIdle) (ops : List Operation) : (w.after ops).IsIdle := by
  induction ops generalizing w with
  | nil => exact idle
  | cons op ops ih => exact ih (idle.perform op)

end World

/-- What every operation keeps lasts through a session. -/
theorem Lasts.after {U : Reference → Prop} {P : World → Prop} (lasts : Lasts U P) {w : World}
    (idle : w.IsIdle) (holds : P w) (ops : List Operation)
    (used : ∀ op ∈ ops, ∀ r ∈ op.references, U r) : P (w.after ops) := by
  induction ops generalizing w with
  | nil => exact holds
  | cons op ops ih =>
    exact ih (idle.perform op) (lasts.perform idle holds (used op List.mem_cons_self))
      fun op hop => used op (List.mem_cons_of_mem _ hop)

/-! ### What stays -/

namespace World

/-- A world in which the outcomes and the providers of another one are still there. -/
structure Retains (w w' : World) : Prop where
  policy : w'.resolver.policy = w.resolver.policy
  outcomes : ∀ key o, Assoc.get? w.resolver.cache key = some o →
    Assoc.get? w'.resolver.cache key = some o
  providers : ∀ name p, w.registry.Provides name p → w'.registry.Provides name p

namespace Retains

variable {w w' w'' : World}

theorem refl (w : World) : w.Retains w := ⟨rfl, fun _ _ h => h, fun _ _ h => h⟩

theorem trans (first : w.Retains w') (next : w'.Retains w'') : w.Retains w'' where
  policy := next.policy.trans first.policy
  outcomes key o found := next.outcomes key o (first.outcomes key o found)
  providers name p provides := next.providers name p (first.providers name p provides)

theorem of_grows (grows : w.Grows w') : w.Retains w' :=
  ⟨grows.policy, grows.outcomes, fun _ _ provides => provides.mono grows⟩

/-- A free alias is bound. -/
theorem bind (w : World) {name : String} (free : Assoc.contains w.registry.bindings name = false)
    (b : Binding) :
    w.Retains (w.updateRegistry fun g =>
      { g with bindings := Assoc.insert g.bindings name b }) := by
  refine ⟨rfl, fun _ _ found => found, ?_⟩
  intro other p provides
  have different : name ≠ other := by
    rintro rfl
    rcases provides with bound | ⟨_, _, bound⟩ <;> simp [Assoc.contains, bound] at free
  unfold Registry.Provides at provides ⊢
  simpa [Assoc.get?_insert, different] using provides

/-- Every operation keeps outcomes and providers. -/
theorem lasts (w₀ : World) : Lasts (fun _ => True) fun w => w.IsIdle ∧ w₀.Retains w where
  run w request context t' w' h used runs := by
    obtain ⟨idle, retains⟩ := h
    refine ⟨(isIdle_lasts fun _ => True).run w request context t' w' idle used runs, ?_⟩
    have grows := (runs.dropped (Task.grows_endures { w with context })
      ⟨(request.fit (idle.renew context) _).balanced, .refl _⟩).2
    have same : w.Retains { w with context } := ⟨rfl, fun _ _ h => h, fun _ _ h => h⟩
    exact (retains.trans same).trans (of_grows grows)
  outside w w' h registry resolver := by
    refine ⟨(isIdle_lasts fun _ => True).outside w w' h.1 registry resolver, h.2.trans ?_⟩
    exact ⟨by rw [resolver], fun _ _ found => by rwa [resolver],
      fun _ _ provides => by rwa [registry]⟩
  bind w name b h free :=
    ⟨(isIdle_lasts fun _ => True).bind w name b h.1 free, h.2.trans (bind w free b)⟩
  build w name result h unbuilt :=
    ⟨(isIdle_lasts fun _ => True).build w name result h.1 unbuilt,
      h.2.trans (of_grows (.setBuilt unbuilt result))⟩

theorem after (w : World) (idle : w.IsIdle) (ops : List Operation) : w.Retains (w.after ops) :=
  ((lasts w).after idle ⟨idle, .refl w⟩ ops fun _ _ _ _ => trivial).2

end Retains

end World

end LayeredConfig
