import LayeredConfig.Proofs.Resolution.Replacing
import LayeredConfig.Proofs.Resolution.Substitution

/-!
# A limit measures nothing but the fetch itself

A fetch may have to wait before it starts: for its provider to be built, for somebody else who
is about to fetch the same, for a permit. The limit counts from its start. So a run with a limit
comes to a value exactly if a run without one does in which every fetch that takes longer than
the limit fails by itself (`Registry.within`), and to the same value (`World.resolve_limited`);
and what is kept under a key is a timeout exactly if the fetch takes longer, whatever it had to
wait for.
-/

namespace LayeredConfig

/-! ### Fetches that take too long fail -/

/-- What a provider reports of a fetch that has taken longer than a limit. -/
def lateFailure (limit : Nat) : Failure := { text := (Cause.timedOut limit).message }

/-- A call that fails, when it is over, if it takes longer than a limit. -/
def Call.within (limit : Nat) (call : Call Value) : Call Value :=
  if limit < call.delay then { call with outcome := .error (lateFailure limit) } else call

/-- A provider all of whose fetches fail that take longer than a limit. -/
def Provider.within (limit : Nat) (p : Provider) : Provider where
  fetch trace path := (p.fetch trace path).within limit

def ProviderType.within (limit : Nat) (t : ProviderType) : ProviderType where
  init trace name config :=
    { t.init trace name config with
      outcome := (t.init trace name config).outcome.map (Provider.within limit) }

def Binding.within (limit : Nat) : Binding → Binding
  | .installed p => .installed (p.within limit)
  | .declared providerType config built =>
    .declared providerType config (built.map (·.map (Provider.within limit)))

/-- A registry of the same providers, except that their fetches fail that take longer than a
limit. -/
def Registry.within (limit : Nat) (g : Registry) : Registry :=
  { g with
    types := Assoc.mapValues (ProviderType.within limit) g.types
    bindings := Assoc.mapValues (Binding.within limit) g.bindings }

/-- The same world without a limit, but with providers whose fetches fail that take longer. -/
def World.within (limit : Nat) (w : World) : World :=
  { w with
    registry := w.registry.within limit
    resolver := { w.resolver with policy := { w.resolver.policy with fetchTimeout := none } } }

/-! ### What depends only on alias and path -/

/-- Outcomes and delays of all fetches depend only on alias and path. -/
structure Registry.IsSteady (g : Registry) (answers : Answers)
    (delays : String → List String → Nat) : Prop where
  follows : g.Follows none answers
  delay : ∀ name p trace path, g.MayAnswer name (.ok p) →
    (p.fetch trace path).delay = delays name path

/-- The same data, except that fetches have no data that take longer than a limit. -/
def Answers.within (limit : Nat) (delays : String → List String → Nat) (late : Cause)
    (answers : Answers) : Answers := fun name =>
  (answers name).map fun answer => answer.map fun data path =>
    if limit < delays name path then .error late else data path

/-- Why a fetch that takes too long has no data makes no difference for who has data. -/
theorem Answers.lookup_within (limit : Nat) (delays : String → List String → Nat)
    (answers : Answers) (late late' : Cause) (r : Reference) :
    ((answers.within limit delays late).lookup r).toOption
      = ((answers.within limit delays late').lookup r).toOption := by
  unfold lookup within
  cases answers r.alias with
  | none => rfl
  | some answer =>
    cases answer with
    | error e => rfl
    | ok data =>
      simp only [Option.map_some, Except.map]
      split <;> rfl

section Steady

variable {g : Registry} {answers : Answers} {delays : String → List String → Nat} {limit : Nat}

/-- With a limit, a fetch has no data if it takes longer. -/
theorem Registry.IsSteady.follows_limit (steady : g.IsSteady answers delays) :
    g.Follows (some limit) (answers.within limit delays (.timedOut limit)) := by
  constructor
  · intro name free
    rw [Answers.within, steady.follows.unbound name free]
    rfl
  · intro name result answer
    obtain ⟨said, known, admits⟩ := steady.follows.admits name result answer
    refine ⟨_, by rw [Answers.within, known]; rfl, ?_⟩
    have itself : result.map id = result := by cases result <;> rfl
    rw [← itself]
    refine admits.map fun p data provided same trace path => ?_
    rw [← steady.delay name p trace path (provided ▸ answer), ← same trace path]
    rfl

/-- Without a limit, a fetch has no data if it fails by itself for taking too long. -/
theorem Registry.IsSteady.follows_within (steady : g.IsSteady answers delays) :
    (g.within limit).Follows none
      (answers.within limit delays (.reported (lateFailure limit))) := by
  have mapped : g.within limit = g.mapProviders (Provider.within limit) := rfl
  rw [mapped]
  refine steady.follows.mapProviders fun name p data answer same trace path => ?_
  rw [← steady.delay name p trace path answer, ← same trace path]
  show ((p.fetch trace path).within limit).verdict none = _
  rw [Call.within]
  split <;> rfl

/-- A fetch comes to a timeout exactly if it takes longer than the limit. -/
theorem Registry.IsSteady.produces_timedOut_iff (steady : g.IsSteady answers delays)
    {r : Reference} {o : Outcome} (produces : g.Produces (some limit) r o) :
    o = .error (.timedOut limit) ↔ limit < delays r.alias r.requestPath := by
  obtain ⟨p, trace, answer, rfl⟩ := produces
  rw [← steady.delay r.alias p trace r.requestPath answer, Call.verdict]
  split
  · rename_i late
    exact ⟨fun _ => late, fun _ => rfl⟩
  · rename_i inTime
    refine ⟨fun same => ?_, fun late => absurd late inTime⟩
    cases ended : (p.fetch trace r.requestPath).outcome <;> rw [ended] at same <;> cases same

end Steady

/-! ### Evaluating -/

namespace Value

variable {answers answers' : Answers} {lenient : Bool}

/-- A value comes to the same whatever the reasons for which references have no data. -/
theorem eval_congr (same : ∀ r, (answers.lookup r).toOption = (answers'.lookup r).toOption)
    (v : Value) : v.eval answers lenient = v.eval answers' lenient := by
  have missing : ∀ v : Value, v.isMissing answers = v.isMissing answers' := by
    intro v
    induction v using induct with
    | reference r => rw [isMissing, isMissing, same]
    | secret inner ih => rw [isMissing, isMissing, ih]
    | _ => rfl
  induction v using induct with
  | scalar s => rfl
  | reference r =>
    rw [eval, eval]
    have here := same r
    generalize answers.lookup r = x, answers'.lookup r = y at here
    cases x <;> cases y <;> cases here <;> rfl
  | secret inner ih => rw [eval, eval, ih]
  | list items ih =>
    rw [eval, eval]
    congr 1
    induction items with
    | nil => rfl
    | cons v rest inner =>
      rw [evalItems, evalItems, ih v List.mem_cons_self,
        inner fun v hv => ih v (List.mem_cons_of_mem _ hv)]
  | map fields ih =>
    rw [eval, eval]
    congr 1
    induction fields with
    | nil => rfl
    | cons f rest inner =>
      rw [evalFields, evalFields, ih f List.mem_cons_self,
        inner fun f hf => ih f (List.mem_cons_of_mem _ hf)]
  | ordered entries ih =>
    rw [eval, eval]
    congr 1
    induction entries with
    | nil => rfl
    | cons e rest inner =>
      have here := ih e List.mem_cons_self
      have others := inner fun e he => ih e (List.mem_cons_of_mem _ he)
      obtain ⟨_ | key, v, origin⟩ := e
      · rw [evalEntries, evalEntries, here, others, missing v]
      · rw [evalEntries, evalEntries, here, others]

end Value

/-! ### Runs with a limit -/

namespace World

/-- What the limit of a resolver measures is the fetch itself. With a fresh resolver, if outcomes
and delays of fetches depend only on alias and path and nothing interrupts the runs, a value
comes to another one within a limit exactly if it does so without a limit where every fetch that
takes longer than the limit fails for that reason, and it is the same one. An outcome that is
kept is a timeout exactly if the fetch takes longer than the limit, whatever it waited for. -/
theorem resolve_limited (w : World) (v : Value) (answers : Answers)
    (delays : String → List String → Nat) (limit : Nat) (idle : w.IsIdle)
    (fresh : w.resolver.cache = []) (limited : w.resolver.policy.fetchTimeout = some limit)
    (steady : w.registry.IsSteady answers delays) (plain : ∀ r ∈ v.references, r.IsPlain)
    (uninterrupted : (w.resolve v).2.interruption? = none)
    (uninterrupted' : ((w.within limit).resolve v).2.interruption? = none) :
    ∃ x y, (w.resolve v).1 = some x ∧ ((w.within limit).resolve v).1 = some y ∧
      (∀ u, x = .ok u ↔ y = .ok u) ∧
      ∀ r ∈ v.references, ∀ o, Assoc.get? (w.resolve v).2.resolver.cache r.key = some o →
        (o = .error (.timedOut limit) ↔ limit < delays r.alias r.requestPath) := by
  have follows : w.registry.Follows w.resolver.policy.fetchTimeout
      (answers.within limit delays (.timedOut limit)) := limited ▸ steady.follows_limit
  obtain ⟨y, ran', same'⟩ := resolve_eq_eval (w.within limit) v _ ⟨idle.1, idle.2, idle.3, idle.4⟩
    fresh steady.follows_within plain uninterrupted'
  obtain ⟨x, w', ran, same, -, rooted⟩ := resolve_eval follows (fun _ h => plain _ h) idle
    (Rooted.of_fresh w fresh (· ∈ v.references)) fun r hr => hr
  rw [ran] at uninterrupted ⊢
  refine ⟨x, y, rfl, ran', fun u => ?_, ?_⟩
  · have value := same.resolve_right fun gone => by simp [uninterrupted] at gone
    rw [← toOption_eq_some_iff, ← toOption_eq_some_iff, value, same',
      Value.eval_congr (answers.lookup_within limit delays _ _)]
    rfl
  · intro r hr o kept
    obtain ⟨r', hr', key, produces⟩ := rooted.cache _ _ kept
    obtain ⟨name, path⟩ := (plain r' hr').eq_of_key_eq (plain r hr) key
    rw [← name, ← path]
    exact steady.produces_timedOut_iff (limited ▸ produces)

/-- A provider that takes longer than usual over one path. -/
def laggard : Provider where
  fetch _ path := {
    delay := if path = ["slow"] then 20 else 10
    outcome := .ok (.string (Text.dotted path)) }

/-- Two permits, and a limit that most fetches take as a whole. -/
def hurried : World where
  registry := .only [] "app" laggard
  resolver := { policy := { allowMissing := true, maxConcurrent := 2, fetchTimeout := some 10 } }

/-- More references than there are permits. -/
def crowd : Value :=
  .list [.reference { «alias» := "app", path := ["slow"] },
    .reference { «alias» := "app", path := ["host"] },
    .reference { «alias» := "app", path := ["port"] }]

/-- The last fetch waits for a permit as long as a fetch may take, and is in time. -/
theorem resolve_limited_crowd :
    ∃ x y, (hurried.resolve crowd).1 = some x ∧ ((hurried.within 10).resolve crowd).1 = some y ∧
      (∀ u, x = .ok u ↔ y = .ok u) ∧
      x = .ok (.list [.null, .string "host", .string "port"]) := by
  have steady : hurried.registry.IsSteady _ fun _ path => if path = ["slow"] then 20 else 10 :=
    ⟨Registry.follows_only fun _ _ => rfl, fun name p trace path answer => by
      rw [Except.ok.inj (Registry.mayAnswer_only answer).2]
      rfl⟩
  obtain ⟨x, y, ran, ran', same, -⟩ := resolve_limited hurried crowd _ _ 10 ⟨rfl, rfl, rfl, rfl⟩
    rfl rfl steady (by decide) (by decide) (by decide)
  exact ⟨x, y, ran, ran', same, Option.some.inj (ran.symm.trans rfl)⟩

end World

end LayeredConfig
