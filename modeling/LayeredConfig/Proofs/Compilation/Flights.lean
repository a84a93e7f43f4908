import LayeredConfig.Proofs.Compilation.Passes
import LayeredConfig.Proofs.Resolution.Fetches

/-!
Nothing is started twice in a compilation.

Between two parts of a compilation nothing is under way, and all that has been started is
accounted for (`Compiling.IsOrderly`). Resolving keeps this as long as it ends with a value
(`Compiling.ensures_fields`). So does a declaration, since only an alias that is free can be
declared, and no provider has been built for such an alias (`Compiling.ensures_register`). With
the first error the compilation is over, and then it is enough that nothing has been started
twice (`Compiling.Ensures`). Both passes are put together by `Compiling.Ensures.bind`, up to
`compile_single` for a whole compilation.
-/

namespace LayeredConfig

/-- Whatever error comes up in a document, or in what it declares, comes up at once. -/
def Document.IsPrompt (parallel : Bool) (d : Document) : Prop :=
  ∀ c, d.convert = .ok c → (Task.ofValue c.root).Prompt parallel ∧
    ∀ s ∈ c.sources, (Task.ofMap s.config).Prompt parallel

namespace Compiling

variable {α β : Type}

/-- What a part of a compilation makes sure of: `Q` if it comes to a result, and `failed` of
the world if it does not. -/
def Ensures (x : Compiling α) (w : World) (Q : α → World → Prop) (failed : World → Prop) : Prop :=
  match x.exec w with
  | (some (.ok a), w') => Q a w'
  | (_, w') => failed w'

variable {w : World} {Q : α → World → Prop} {Q' : β → World → Prop} {failed : World → Prop}

theorem Ensures.pure {a : α} (holds : Q a w) : Ensures (Pure.pure a) w Q failed := holds

theorem Ensures.bind {x : Compiling α} {f : α → Compiling β} (first : Ensures x w Q failed)
    (second : ∀ a w', Q a w' → Ensures (f a) w' Q' failed) : Ensures (x >>= f) w Q' failed := by
  unfold Ensures at first ⊢
  rw [exec_bind]
  rcases ran : x.exec w with ⟨_ | _ | a, w'⟩
  · simpa [ran] using first
  · simpa [ran] using first
  · rw [ran] at first
    exact second a w' first

/-- The result of a part and the world after it settle what it makes sure of. -/
theorem Ensures.of_exec {x : Compiling α} {result : Except CompileError α} {w' : World}
    (ran : x.exec w = (some result, w')) (ok : ∀ a, result = .ok a → Q a w')
    (error : ∀ e, result = .error e → failed w') : Ensures x w Q failed := by
  unfold Ensures
  rw [ran]
  cases result with
  | ok a => exact ok a rfl
  | error e => exact error e rfl

/-! ### What carries over -/

/-- All that a compilation has started so far is accounted for. -/
structure IsOrderly (rules : Policy) (w : World) : Prop where
  policy : w.resolver.policy = rules
  orderly : World.IsOrderlySince [] 0 w

variable {rules : Policy} {prompt : Prop}

theorem isOrderly_prepare (w : World) (types : Assoc ProviderType) (options : CompileOptions) :
    IsOrderly options.toPolicy (w.prepare types options) :=
  ⟨rfl, (agrees_prepare w types options).idle |> World.isIdle_iff.mp, [],
    .refl 0 (w.prepare types options)⟩

theorem IsOrderly.isSingleSince (before : IsOrderly rules w) : w.IsSingleSince [] :=
  before.orderly.isSingleSince

/-- Resolving fields starts nothing twice. -/
theorem ensures_fields (before : IsOrderly rules w) (file : String) {t : Task}
    (fit : t.Fit w.resolver.policy.isParallel w)
    (atOnce : prompt → t.Prompt rules.isParallel) :
    Ensures (fields file (·.runTask t)) w (fun _ w' => IsOrderly rules w')
      (fun w' => prompt → w'.IsSingleSince []) := by
  obtain ⟨policy, orderly⟩ := before
  subst policy
  obtain ⟨single, accounted⟩ := World.runTask_single fit orderly
  have policy := (World.runTask_grows fit).policy
  obtain ⟨-, w', x, ran, -⟩ := World.runTask_ends fit
  rw [ran] at single accounted policy
  refine .of_exec (exec_fields file ran) ?_ fun _ _ given => single (atOnce given)
  intro fields same
  cases x with
  | ok v => exact ⟨policy, accounted v rfl⟩
  | error e => cases same

/-- No provider has been built for an alias that is free, so none is built again once it is
declared. -/
theorem IsOrderly.declare (before : IsOrderly rules w) {name : String}
    (free : Assoc.get? w.registry.bindings name = none) (providerType : String) (config : Fields) :
    IsOrderly rules { w with registry := w.registry.declare name providerType config } := by
  obtain ⟨policy, balanced, events, flights⟩ := before
  have idle := World.isIdle_iff.mpr balanced
  refine ⟨policy, World.isIdle_iff.mp ⟨idle.builders, idle.outcomes, idle.queue, idle.permits⟩,
    events, flights.onward rfl (fun _ h => h) fun other built => ?_⟩
  rcases built with ⟨providerType', config', result, bound⟩ | idle | interrupted
  · exact .inl ⟨_, _, _, (Registry.extends_declare free).bindings _ _ bound⟩
  · exact .inr (.inl idle)
  · exact .inr (.inr interrupted)

theorem ensures_register (before : IsOrderly rules w) (s : DeclaredSource) (config : Fields) :
    Ensures (register s config) w (fun _ w' => IsOrderly rules w')
      (fun w' => prompt → w'.IsSingleSince []) := by
  have registered := Registry.register_eq w.registry s.alias s.providerType config
  split at registered
  · exact .of_exec (exec_register registered) (fun _ _ => before)
      fun _ _ _ => before.isSingleSince
  · split at registered
    · exact .of_exec (exec_register registered) (fun _ _ => before)
        fun _ _ _ => before.isSingleSince
    · rename_i unbound
      have free : Assoc.get? w.registry.bindings s.alias = none := by
        simpa [Assoc.contains] using unbound
      exact .of_exec (exec_register registered) (fun _ _ => before.declare free _ _)
        fun _ same => by cases same

/-! ### The passes -/

theorem ensures_sources (before : IsOrderly rules w) (file : String) {sources : List DeclaredSource}
    (atOnce : prompt → ∀ s ∈ sources, (Task.ofMap s.config).Prompt rules.isParallel) :
    Ensures (sources.forM (declareSource file)) w (fun _ w' => IsOrderly rules w')
      (fun w' => prompt → w'.IsSingleSince []) := by
  induction sources generalizing w with
  | nil => exact .pure before
  | cons s rest ih =>
    show Ensures (declareSource file s >>= fun _ => rest.forM (declareSource file)) w _ _
    have idle := World.isIdle_iff.mpr before.orderly.1
    have resolved := ensures_fields before file (idle.fit_ofMap _ s.config) fun given =>
      atOnce given s List.mem_cons_self
    apply (resolved.bind fun config w' after => ensures_register after s config).bind
    intro _ w' after
    exact ih after fun given s hs => atOnce given s (List.mem_cons_of_mem _ hs)

/-- The first pass keeps the account, and what it leaves are the roots of documents. -/
theorem ensures_roots (before : IsOrderly rules w) {documents : List Document}
    (atOnce : prompt → ∀ d ∈ documents, d.IsPrompt rules.isParallel) :
    Ensures (roots documents) w
      (fun rs w' => IsOrderly rules w' ∧
        ∀ p ∈ rs, prompt → (Task.ofValue p.2).Prompt rules.isParallel)
      (fun w' => prompt → w'.IsSingleSince []) := by
  induction documents generalizing w with
  | nil => exact .pure ⟨before, by simp⟩
  | cons d rest ih =>
    rw [roots]
    have here := fun given => atOnce given d List.mem_cons_self
    have there := fun given d hd => atOnce given d (List.mem_cons_of_mem _ hd)
    have converted : Ensures (ofExcept (d.convert.mapError (.conversion d.file))) w
        (fun c w' => IsOrderly rules w' ∧ d.convert = .ok c)
        (fun w' => prompt → w'.IsSingleSince []) := by
      refine .of_exec rfl (fun c same => ⟨before, ?_⟩) fun _ _ _ => before.isSingleSince
      cases h : d.convert with
      | ok c' => rw [h] at same; cases same; rfl
      | error e => rw [h] at same; cases same
    apply converted.bind
    rintro c w' ⟨after, converts⟩
    apply (ensures_sources after d.file fun given => (here given c converts).2).bind
    intro _ w' after
    apply (ih after there).bind
    rintro rs w' ⟨after, prompts⟩
    refine .pure ⟨after, ?_⟩
    intro p hp given
    rcases List.mem_cons.mp hp with rfl | hp
    · exact (here given c converts).1
    · exact prompts p hp given

theorem ensures_layers (before : IsOrderly rules w) {roots : List (String × Value)}
    (atOnce : ∀ p ∈ roots, prompt → (Task.ofValue p.2).Prompt rules.isParallel) :
    Ensures (layers roots) w (fun _ w' => IsOrderly rules w')
      (fun w' => prompt → w'.IsSingleSince []) := by
  induction roots generalizing w with
  | nil => exact .pure before
  | cons p rest ih =>
    rw [layers]
    have idle := World.isIdle_iff.mpr before.orderly.1
    have resolved := ensures_fields before p.1 (idle.fit _ (.ofValue p.2))
      (atOnce p List.mem_cons_self)
    apply resolved.bind
    intro layer w' after
    apply (ih after fun p hp => atOnce p (List.mem_cons_of_mem _ hp)).bind
    intro others w' after
    exact .pure after

/-- Both passes together. -/
theorem ensures_values (before : IsOrderly rules w) {documents : List Document}
    (atOnce : prompt → ∀ d ∈ documents, d.IsPrompt rules.isParallel) :
    Ensures (values documents) w (fun _ w' => IsOrderly rules w')
      (fun w' => prompt → w'.IsSingleSince []) := by
  apply (ensures_roots before atOnce).bind
  rintro rs w' ⟨after, prompts⟩
  apply (ensures_layers after prompts).bind
  intro others w' after
  exact .pure after

end Compiling

theorem compile_single (types : Assoc ProviderType) (options : CompileOptions)
    (documents : List Document) (w : World)
    (prompt : (∀ d ∈ documents, d.IsPrompt options.isParallel) ∨
      ∃ s, (compile types options documents w).1 = some (.ok s)) :
    (compile types options documents w).2.trace.IsSingle := by
  have since : ∀ {w : World}, w.IsSingleSince [] → w.trace.IsSingle := by
    rintro w ⟨events, trace, single⟩
    rwa [trace, List.append_nil]
  have ensured := Compiling.ensures_values (Compiling.isOrderly_prepare w types options)
    (fun given : ∀ d ∈ documents, d.IsPrompt options.isParallel => given)
  unfold Compiling.Ensures at ensured
  rcases ran : (Compiling.values documents).exec (w.prepare types options) with ⟨result, w'⟩
  rw [Compiling.compile_of_exec ran] at prompt ⊢
  rw [ran] at ensured
  apply since
  rcases result with _ | _ | values
  · rcases prompt with prompt | ⟨s, ended⟩
    · exact ensured prompt
    · cases ended
  · rcases prompt with prompt | ⟨s, ended⟩
    · exact ensured prompt
    · cases ended
  · exact ensured.isSingleSince

/-- In a run, and in a compilation, no fetch is started twice under a key, nor a provider of an
alias twice, if every error comes up at once or none comes up. A run of a fresh resolver that
ends with a value has fetched exactly what its references with a provider ask for. -/
theorem single_flight :
    (∀ (w : World) (v : Value), w.IsIdle →
      (Task.ofValue v).Prompt w.resolver.policy.isParallel ∨
        (∃ u, (w.resolve v).1 = some (.ok u)) →
      (w.resolve v).2.IsSingleSince w.trace) ∧
    (∀ (types : Assoc ProviderType) (options : CompileOptions) (documents : List Document)
        (w : World),
      (∀ d ∈ documents, d.IsPrompt options.isParallel) ∨
        (∃ s, (compile types options documents w).1 = some (.ok s)) →
      (compile types options documents w).2.trace.IsSingle) ∧
    (∀ (w : World) (v u : Value), w.IsIdle → w.resolver.cache = [] →
      (∀ r ∈ v.references, r.IsPlain) → (w.resolve v).1 = some (.ok u) →
      ∃ events, (w.resolve v).2.trace = events ++ w.trace ∧
        ∀ q, q ∈ events.filterMap Event.fetched? ↔ ∃ r ∈ v.references, r.request = q ∧
          ∃ p, (w.resolve v).2.registry.Provides r.alias p) := by
  refine ⟨?_, ?_, ?_⟩
  · intro w v idle prompt
    have orderly : World.IsOrderlySince w.trace 0 w :=
      ⟨World.isIdle_iff.mp idle, [], .refl 0 w⟩
    obtain ⟨single, accounted⟩ := World.runTask_single (idle.fit _ (.ofValue v)) orderly
    rcases prompt with prompt | ⟨u, ended⟩
    · exact single prompt
    · exact (accounted u ended).isSingleSince
  · intro types options documents w prompt
    exact compile_single types options documents w prompt
  · intro w v u idle fresh plain ended
    exact World.resolve_fetches idle fresh plain ended

/-- Two references to the same data, and a third one to other data. -/
def sharedData : Value :=
  .list [.reference { «alias» := "a", path := ["x"] }, .reference { «alias» := "a", path := ["x"] },
    .reference { «alias» := "a", path := ["y"] }]

theorem single_flight_shared :
    (World.resolve { registry := .only [] "a" (.echo 5) } sharedData).2.IsSingleSince [] ∧
      (compile [("echo", .echo 5)] { maxConcurrent := 1 } sharedSource {}).2.trace.IsSingle ∧
      ∃ events,
        (World.resolve { registry := .only [] "a" (.echo 5) } sharedData).2.trace = events ++ [] ∧
        ∀ q, q ∈ events.filterMap Event.fetched? ↔
          ∃ r ∈ sharedData.references, r.request = q ∧
            ∃ p, (World.resolve { registry := .only [] "a" (.echo 5) }
              sharedData).2.registry.Provides r.alias p := by
  obtain ⟨resolves, compiles, fetches⟩ := single_flight
  have plain : ∀ r ∈ sharedData.references, r.IsPlain := by
    intro r hr
    simp only [sharedData, Value.references, Value.referencesOfItems, List.mem_append,
      List.mem_singleton, List.not_mem_nil, or_false] at hr
    rcases hr with rfl | rfl | rfl <;> exact ⟨by decide, by decide⟩
  have ended : (World.resolve { registry := .only [] "a" (.echo 5) } sharedData).1
      = some (.ok (.list [.string "x", .string "x", .string "y"])) := by rfl
  have idle : World.IsIdle { registry := .only [] "a" (.echo 5) } := ⟨rfl, rfl, rfl, rfl⟩
  refine ⟨resolves { registry := .only [] "a" (.echo 5) } sharedData idle (.inr ⟨_, ended⟩),
    compiles [("echo", .echo 5)] { maxConcurrent := 1 } sharedSource {} (.inl ?_),
    fetches { registry := .only [] "a" (.echo 5) } sharedData _ idle rfl plain ended⟩
  intro d _ c _
  exact ⟨Task.prompt_of_sequential _, fun s _ => Task.prompt_of_sequential _⟩

end LayeredConfig
