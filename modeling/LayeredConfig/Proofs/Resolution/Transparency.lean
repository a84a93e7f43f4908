import LayeredConfig.Proofs.Resolution.Replacing
import LayeredConfig.Proofs.Resolution.Reuse
import LayeredConfig.Proofs.Value.Revealing

/-!
# Secrets make no difference to resolution

Take every secret off a value, and off all that providers answer. What the value stands for
loses its secrets and is otherwise the same (`Value.eval_reveal`), so resolving it fails
exactly if it did before, and else comes to the same value without its secrets
(`World.resolve_reveal`). `Registry.reveal` is a registry whose providers answer so.
-/

namespace LayeredConfig

/-! ### Answers without their secrets -/

/-- An answer whose data has no secrets. -/
def Answer.reveal (answer : Answer) : Answer :=
  answer.map fun data path => (data path).map Value.reveal

/-- Answers whose data has no secrets. -/
def Answers.reveal (answers : Answers) : Answers := fun name => (answers name).map Answer.reveal

/-- A provider that takes the secrets off its data. -/
def Provider.reveal (p : Provider) : Provider where
  fetch trace path :=
    { p.fetch trace path with outcome := (p.fetch trace path).outcome.map Value.reveal }

/-- A type of providers that take the secrets off their data. -/
def ProviderType.reveal (t : ProviderType) : ProviderType where
  init trace name config :=
    { t.init trace name config with
      outcome := (t.init trace name config).outcome.map Provider.reveal }

/-- A binding to a provider that takes the secrets off its data. -/
def Binding.reveal : Binding → Binding
  | .installed p => .installed p.reveal
  | .declared providerType config built =>
    .declared providerType config (built.map (·.map Provider.reveal))

/-- A registry whose providers take the secrets off their data. -/
def Registry.reveal (g : Registry) : Registry where
  types := Assoc.mapValues ProviderType.reveal g.types
  bindings := Assoc.mapValues Binding.reveal g.bindings
  lines := g.lines

theorem Call.verdict_reveal (limit : Option Nat) (call : Call Value) :
    Call.verdict limit { call with outcome := call.outcome.map Value.reveal }
      = (call.verdict limit).map Value.reveal := by
  obtain ⟨cancels, delay, outcome⟩ := call
  unfold Call.verdict
  cases limit with
  | none => cases outcome <;> rfl
  | some limit =>
    dsimp only
    split
    · rfl
    · cases outcome <;> rfl

/-- A registry without secrets follows answers without secrets. -/
theorem Registry.Follows.reveal {g : Registry} {limit : Option Nat} {answers : Answers}
    (follows : g.Follows limit answers) : g.reveal.Follows limit answers.reveal := by
  have mapped : g.reveal = g.mapProviders Provider.reveal := rfl
  rw [mapped]
  refine follows.mapProviders fun name p data _ same trace path => ?_
  rw [← same trace path]
  exact Call.verdict_reveal limit (p.fetch trace path)

/-! ### What a value without its secrets stands for -/

/-- What an outcome without secrets means for a reference. -/
theorem Site.settle_reveal (r : Reference) (o : Outcome) :
    settle r (o.map Value.reveal) = (settle r o).map Value.reveal := by
  cases o with
  | error cause => rfl
  | ok v =>
    simp only [Except.map, settle, Value.pick_reveal]
    cases v.pick r.entryPath <;> rfl

namespace Value

variable (answers : Answers) (lenient : Bool)

/-- The data behind a reference, or the reason why there is none. -/
theorem lookup_reveal (r : Reference) :
    answers.reveal.lookup r = (answers.lookup r).map reveal := by
  unfold Answers.lookup Answers.reveal
  cases answers r.alias with
  | none => rfl
  | some answer =>
    cases answer with
    | error e => rfl
    | ok data => exact Site.settle_reveal r (data r.requestPath)

theorem isMissing_reveal (v : Value) : v.reveal.isMissing answers.reveal = v.isMissing answers := by
  induction v using Value.induct with
  | scalar s => rfl
  | list items => rfl
  | map fields => rfl
  | ordered entries => rfl
  | reference r =>
    rw [reveal, isMissing, isMissing, lookup_reveal]
    cases answers.lookup r <;> rfl
  | secret inner ih => rw [reveal, isMissing, ih]

section Parts

variable {answers : Answers} {lenient : Bool}

theorem evalItems_reveal {items : List Value} (each : ∀ v ∈ items,
    v.reveal.eval answers.reveal lenient = (v.eval answers lenient).map reveal) :
    evalItems answers.reveal lenient (revealItems items)
      = (evalItems answers lenient items).map revealItems := by
  induction items with
  | nil => rfl
  | cons v rest ih =>
    have rest' := ih fun v hv => each v (List.mem_cons_of_mem _ hv)
    rw [revealItems, evalItems, evalItems, each v List.mem_cons_self, rest']
    cases v.eval answers lenient with
    | none => rfl
    | some u => cases evalItems answers lenient rest <;> rfl

theorem evalFields_reveal {fields : List (String × Value)} (each : ∀ f ∈ fields,
    f.2.reveal.eval answers.reveal lenient = (f.2.eval answers lenient).map reveal) :
    evalFields answers.reveal lenient (revealFields fields)
      = (evalFields answers lenient fields).map revealFields := by
  induction fields with
  | nil => rfl
  | cons f rest ih =>
    obtain ⟨key, v⟩ := f
    have rest' := ih fun f hf => each f (List.mem_cons_of_mem _ hf)
    rw [revealFields, evalFields, evalFields, each _ List.mem_cons_self, rest']
    cases v.eval answers lenient with
    | none => rfl
    | some u => cases evalFields answers lenient rest <;> rfl

/-- Whether a spread is given up does not depend on secrets either. -/
theorem evalEntries_reveal {entries : List (Entry Value)} (each : ∀ e ∈ entries,
    e.value.reveal.eval answers.reveal lenient = (e.value.eval answers lenient).map reveal) :
    evalEntries answers.reveal lenient (revealEntries entries)
      = (evalEntries answers lenient entries).map revealEntries := by
  induction entries with
  | nil => rfl
  | cons e rest ih =>
    have rest' := ih fun e he => each e (List.mem_cons_of_mem _ he)
    have here := each e List.mem_cons_self
    obtain ⟨_ | key, v, origin⟩ := e
    · dsimp only at here
      rw [revealEntries, evalEntries, evalEntries, isMissing_reveal, rest', here]
      split
      · rfl
      · cases v.eval answers lenient with
        | none => rfl
        | some u => cases evalEntries answers lenient rest <;> rfl
    · dsimp only at here
      rw [revealEntries, evalEntries, evalEntries, rest', here]
      cases v.eval answers lenient with
      | none => rfl
      | some u => cases evalEntries answers lenient rest <;> rfl

end Parts

/-- A value without its secrets stands for the same without its secrets. -/
theorem eval_reveal (v : Value) :
    v.reveal.eval answers.reveal lenient = (v.eval answers lenient).map reveal := by
  induction v using Value.induct with
  | scalar s => rfl
  | reference r =>
    rw [reveal, eval, eval, lookup_reveal]
    cases answers.lookup r with
    | ok v => rfl
    | error e => cases lenient <;> rfl
  | secret inner ih =>
    rw [reveal, eval, ih]
    cases inner.eval answers lenient <;> simp [reveal]
  | list items ih =>
    rw [reveal, eval, eval, evalItems_reveal ih]
    cases evalItems answers lenient items <;> simp [reveal]
  | map fields ih =>
    rw [reveal, eval, eval, evalFields_reveal ih]
    cases evalFields answers lenient fields <;> simp [reveal]
  | ordered entries ih =>
    rw [reveal, eval, eval, evalEntries_reveal ih]
    cases evalEntries answers lenient entries with
    | none => rfl
    | some es =>
      rw [Option.map_some, Option.bind_some, Option.bind_some, revealEntries_eq_map,
        composeResolved_reveal]
      cases (composeResolved es).toOption <;> simp [reveal_map]

/-- A value without its secrets has the same references. -/
theorem references_reveal (v : Value) : v.reveal.references = v.references := by
  induction v using Value.induct with
  | scalar s => rfl
  | reference r => rfl
  | secret inner ih => rw [reveal, references, ih]
  | list items ih =>
    rw [reveal, references, references]
    induction items with
    | nil => rfl
    | cons v rest inner =>
      rw [revealItems, referencesOfItems, referencesOfItems, ih v List.mem_cons_self,
        inner fun v hv => ih v (List.mem_cons_of_mem _ hv)]
  | map fields ih =>
    rw [reveal, references, references]
    induction fields with
    | nil => rfl
    | cons f rest inner =>
      obtain ⟨key, v⟩ := f
      have here : v.reveal.references = v.references := ih _ List.mem_cons_self
      rw [revealFields, referencesOfFields, referencesOfFields, here,
        inner fun f hf => ih f (List.mem_cons_of_mem _ hf)]
  | ordered entries ih =>
    rw [reveal, references, references]
    induction entries with
    | nil => rfl
    | cons e rest inner =>
      obtain ⟨key, v, origin⟩ := e
      have here : v.reveal.references = v.references := ih _ List.mem_cons_self
      rw [revealEntries, referencesOfEntries, referencesOfEntries, here,
        inner fun e he => ih e (List.mem_cons_of_mem _ he)]

end Value

/-! ### Runs -/

namespace World

/-- Secrets are transparent to resolution. Of two resolvers whose providers answer the same up
to secrets, and which allow for missing data alike, the one succeeds with a value exactly if the
other succeeds with the value without its secrets, and then with the same result without its
secrets, unless one of the two runs is interrupted. -/
theorem resolve_reveal (w w' : World) (v : Value) (answers : Answers) (idle : w.IsIdle)
    (idle' : w'.IsIdle) (sourced : Sourced Reference.IsPlain 0 w)
    (sourced' : Sourced Reference.IsPlain 0 w') (plain : ∀ r ∈ v.references, r.IsPlain)
    (follows : w.registry.Follows w.resolver.policy.fetchTimeout answers)
    (follows' : w'.registry.Follows w'.resolver.policy.fetchTimeout answers.reveal)
    (policy : w'.resolver.policy.allowMissing = w.resolver.policy.allowMissing)
    (live : (w.resolve v).2.interruption? = none)
    (live' : (w'.resolve v.reveal).2.interruption? = none) :
    ∃ x y, (w.resolve v).1 = some x ∧ (w'.resolve v.reveal).1 = some y ∧
      y.toOption = x.toOption.map Value.reveal := by
  obtain ⟨⟨x, u, ran, value⟩, -⟩ := resolve_sourced idle sourced (fun _ h => h) plain follows
  obtain ⟨⟨y, u', ran', value'⟩, -⟩ := resolve_sourced idle' sourced' (fun _ h => h)
    (v.references_reveal ▸ plain) follows'
  rw [ran] at live ⊢
  rw [ran'] at live' ⊢
  refine ⟨x, y, rfl, rfl, ?_⟩
  rw [value live, value' live', policy, Value.eval_reveal]

/-- A provider whose data is secret, as a whole and in its parts. -/
def vault : Provider where
  fetch _ _ := {
    delay := 3
    outcome := .ok (.secret (.map [("red", .secret (.map [("port", .string "1")])),
      ("blue", .map [("port", .secret (.string "2"))])])) }

/-- A spread of secret data, twice secret itself, and the ports of all its entries. -/
def vaulted : Value :=
  .ordered [⟨none, .secret (.secret (.reference { «alias» := "vault", path := ["db"] })), {}⟩,
    ⟨some "ports", .reference { «alias» := "vault", path := ["db", "*", "port"] }, {}⟩]

theorem resolve_reveal_vault :
    ∃ x y, (World.resolve { registry := .only [] "vault" vault } vaulted).1 = some x ∧
      (World.resolve { registry := (Registry.only [] "vault" vault).reveal } vaulted.reveal).1
        = some y ∧
      y.toOption = x.toOption.map Value.reveal ∧
      y = .ok (.map [("red", .map [("port", .string "1")]), ("blue", .map [("port", .string "2")]),
        ("ports", .map [("red", .string "1"), ("blue", .string "2")])]) := by
  have follows : (Registry.only [] "vault" vault).Follows none _ :=
    Registry.follows_only fun _ _ => rfl
  obtain ⟨x, y, ran, ran', same⟩ := resolve_reveal { registry := .only [] "vault" vault }
    { registry := (Registry.only [] "vault" vault).reveal } vaulted _ ⟨rfl, rfl, rfl, rfl⟩
    ⟨rfl, rfl, rfl, rfl⟩ (.of_fresh _ rfl _) (.of_fresh _ rfl _)
    (by
      intro r hr
      simp only [vaulted, Value.references, Value.referencesOfEntries, List.append_nil,
        List.mem_append, List.mem_singleton] at hr
      rcases hr with rfl | rfl <;> exact ⟨by decide, by decide⟩)
    follows follows.reveal rfl (by decide) (by decide)
  exact ⟨x, y, ran, ran', same, Option.some.inj (ran'.symm.trans rfl)⟩

end World

end LayeredConfig
