import LayeredConfig.Proofs.Resolution.Keys
import LayeredConfig.Proofs.Resolution.Provenance

/-!
What a value stands for.

If the outcome of every initialisation and every fetch depends only on alias and path,
the data behind a registry is a function: `Answers`. `Value.eval` replaces every
reference in a value by its data, without clock, cache, lines or permits. This is what
resolution is measured against.

A registry follows answers if it may give no others (`Registry.Follows`), and the answers that
are the only ones of their registry are followed by it (`Registry.follows_only`). The references of
a value are the sites of the task that resolves it (`Task.references_ofValue_and_ofSpread`), and a
world whose outcomes are all rooted is truthful to the answers that its registry follows
(`Rooted.isTruthful`).
-/

namespace LayeredConfig

/-- What asking for a provider comes to: a failure to set it up, or its data at every path. -/
abbrev Answer := Except SetupError (List String → Outcome)

/-- Whether a result is what an answer says: every fetch of a provider has the outcome that
the path settles, whenever it is made. -/
def Answer.Admits (limit : Option Nat) (answer : Answer) : Except SetupError Provider → Prop
  | .ok p => ∃ data, answer = .ok data ∧
      ∀ trace path, (p.fetch trace path).verdict limit = data path
  | .error e => answer = .error e

/-- What aliases stand for, if anything. -/
abbrev Answers := String → Option Answer

namespace Answers

/-- The data behind a reference, or why there is none. -/
def lookup (answers : Answers) (r : Reference) : Except ResolveError Value :=
  match answers r.alias with
  | none => .error (.notRegistered r)
  | some (.error e) => .error (.unresolved r (.setup e))
  | some (.ok data) => Site.settle r (data r.requestPath)

/-- No lookup fails for an interruption. -/
theorem not_isInterruption {answers : Answers} {r : Reference} {e : ResolveError}
    (failed : answers.lookup r = .error e) : e.isInterruption = false := by
  unfold lookup at failed
  split at failed
  · cases failed
    rfl
  · cases failed
    rfl
  · unfold Site.settle at failed
    split at failed
    · cases failed
      rfl
    · split at failed
      · cases failed
      · cases failed
        rfl

end Answers

namespace Registry

/-- Everything that a registry may come to depends only on alias and path. -/
structure Follows (g : Registry) (limit : Option Nat) (answers : Answers) : Prop where
  unbound : ∀ name, Assoc.get? g.bindings name = none → answers name = none
  admits : ∀ name result, g.MayAnswer name result →
    ∃ answer, answers name = some answer ∧ answer.Admits limit result

namespace Follows

variable {g : Registry} {limit : Option Nat} {answers : Answers}

theorem refused (follows : g.Follows limit answers) {name : String} {e : SetupError}
    (answer : g.MayAnswer name (.error e)) : answers name = some (.error e) := by
  obtain ⟨_, known, rfl⟩ := follows.admits _ _ answer
  exact known

theorem outcome (follows : g.Follows limit answers) {r : Reference} {o : Outcome}
    (produces : g.Produces limit r o) :
    ∃ data, answers r.alias = some (.ok data) ∧ o = data r.requestPath := by
  obtain ⟨p, trace, answer, rfl⟩ := produces
  obtain ⟨_, known, data, rfl, same⟩ := follows.admits _ _ answer
  exact ⟨data, known, same trace r.requestPath⟩

end Follows

/-- A registry of one alias, bound to a provider that is already there. -/
def only (types : Assoc ProviderType) (name : String) (p : Provider) : Registry :=
  { types, bindings := [(name, .installed p)] }

section Only

variable {types : Assoc ProviderType} {name : String} {p : Provider}

theorem mayAnswer_only {other : String} {result : Except SetupError Provider}
    (answer : (only types name p).MayAnswer other result) : name = other ∧ result = .ok p := by
  have found : ∀ {b}, Assoc.get? (only types name p).bindings other = some b →
      name = other ∧ b = .installed p := by
    intro b bound
    simp only [only, Assoc.get?_cons, Assoc.get?_nil] at bound
    split at bound
    · rename_i same
      cases bound
      exact ⟨same, rfl⟩
    · cases bound
  cases answer with
  | installed bound =>
    obtain ⟨same, installed⟩ := found bound
    cases installed
    exact ⟨same, rfl⟩
  | _ bound => cases (found bound).2

theorem follows_only {limit : Option Nat} {data : List String → Outcome}
    (same : ∀ trace path, (p.fetch trace path).verdict limit = data path) :
    (only types name p).Follows limit (Function.update (fun _ => none) name (some (.ok data))) := by
  constructor
  · intro other free
    simp only [only, Assoc.get?_cons, Assoc.get?_nil] at free
    split at free
    · cases free
    · rename_i different
      rw [Function.update_of_ne (Ne.symm different)]
  · intro other result answer
    obtain ⟨rfl, rfl⟩ := mayAnswer_only answer
    exact ⟨.ok data, Function.update_self .., data, rfl, same⟩

end Only

end Registry

/-- A provider that answers every path with the path itself, after a time. -/
def Provider.echo (delay : Nat) : Provider where
  fetch _ path := { delay, outcome := .ok (.string (Text.dotted path)) }

namespace Value

/-! ### Evaluation -/

/-- Whether a value is a reference without data, perhaps inside a secret. -/
def isMissing (answers : Answers) : Value → Bool
  | .reference r => (answers.lookup r).toOption.isNone
  | .secret inner => isMissing answers inner
  | _ => false

mutual
/-- A value with every reference replaced by its data and every map with spreads composed.
Where missing data is allowed, a reference without data is null, and contributes nothing as
the value of a spread. -/
def eval (answers : Answers) (lenient : Bool) : Value → Option Value
  | .scalar s => some (.scalar s)
  | .list items => (evalItems answers lenient items).map .list
  | .map fields => (evalFields answers lenient fields).map .map
  | .ordered entries =>
    (evalEntries answers lenient entries).bind fun entries =>
      (composeResolved entries).toOption.map .map
  | .reference r =>
    match answers.lookup r with
    | .ok v => some v
    | .error _ => if lenient then some .null else none
  | .secret inner => (eval answers lenient inner).map .secret

def evalItems (answers : Answers) (lenient : Bool) : List Value → Option (List Value)
  | [] => some []
  | v :: rest => do
    let v ← eval answers lenient v
    return v :: (← evalItems answers lenient rest)

def evalFields (answers : Answers) (lenient : Bool) :
    List (String × Value) → Option (List (String × Value))
  | [] => some []
  | (key, v) :: rest => do
    let v ← eval answers lenient v
    return (key, v) :: (← evalFields answers lenient rest)

def evalEntries (answers : Answers) (lenient : Bool) :
    List (Entry Value) → Option (List (Entry Value))
  | [] => some []
  | ⟨some key, v, origin⟩ :: rest => do
    let v ← eval answers lenient v
    return ⟨some key, v, origin⟩ :: (← evalEntries answers lenient rest)
  | ⟨none, v, origin⟩ :: rest =>
    if lenient && isMissing answers v then evalEntries answers lenient rest
    else do
      let v ← eval answers lenient v
      return ⟨none, v, origin⟩ :: (← evalEntries answers lenient rest)
end

mutual
/-- The references in a value. -/
def references : Value → List Reference
  | .scalar _ => []
  | .list items => referencesOfItems items
  | .map fields => referencesOfFields fields
  | .ordered entries => referencesOfEntries entries
  | .reference r => [r]
  | .secret inner => references inner

def referencesOfItems : List Value → List Reference
  | [] => []
  | v :: rest => references v ++ referencesOfItems rest

def referencesOfFields : List (String × Value) → List Reference
  | [] => []
  | (_, v) :: rest => references v ++ referencesOfFields rest

def referencesOfEntries : List (Entry Value) → List Reference
  | [] => []
  | ⟨_, v, _⟩ :: rest => references v ++ referencesOfEntries rest
end

end Value

namespace Task

variable {parallel : Bool}

theorem sites_ofParts (here : Address) (shape : Shape) (empty : Value) (parts : List Task) :
    (ofParts shape empty parts).sites parallel here
      = (Task.join shape parts).sites parallel here := by
  cases parts with
  | nil => simp [ofParts]
  | cons t rest => rfl

section Parts

variable (outer : Address) (step : Step)

theorem references_ofItems {items : List Value} (each : ∀ v ∈ items, ∀ here,
    ((ofValue v).sites parallel here).map Standing.reference = ↑v.references) :
    (sitesOf parallel outer step (ofItems items)).map Standing.reference
      = ↑(Value.referencesOfItems items) := by
  induction items generalizing step with
  | nil => simp [ofItems, Value.referencesOfItems]
  | cons v rest ih =>
    have rest' := ih step.next fun v hv => each v (List.mem_cons_of_mem _ hv)
    rw [ofItems, sitesOf_cons, Multiset.map_add, each v List.mem_cons_self, rest',
      Value.referencesOfItems, Multiset.coe_add]

theorem references_ofFields {fields : List (String × Value)} (each : ∀ f ∈ fields, ∀ here,
    ((ofValue f.2).sites parallel here).map Standing.reference = ↑f.2.references) :
    (sitesOf parallel outer step (ofFields fields)).map Standing.reference
      = ↑(Value.referencesOfFields fields) := by
  induction fields generalizing step with
  | nil => simp [ofFields, Value.referencesOfFields]
  | cons f rest ih =>
    have rest' := ih step.next fun f hf => each f (List.mem_cons_of_mem _ hf)
    have here := each f List.mem_cons_self
    obtain ⟨key, v⟩ := f
    rw [ofFields, sitesOf_cons, Multiset.map_add, here, rest', Value.referencesOfFields,
      Multiset.coe_add]

theorem references_ofEntries {entries : List (Entry Value)} (each : ∀ e ∈ entries, ∀ here,
    ((ofValue e.value).sites parallel here).map Standing.reference = ↑e.value.references ∧
      ((ofSpread e.value).sites parallel here).map Standing.reference = ↑e.value.references) :
    (sitesOf parallel outer step (ofEntries entries)).map Standing.reference
      = ↑(Value.referencesOfEntries entries) := by
  induction entries generalizing step with
  | nil => simp [ofEntries, Value.referencesOfEntries]
  | cons e rest ih =>
    have rest' := ih step.next fun e he => each e (List.mem_cons_of_mem _ he)
    obtain ⟨value, spread⟩ := each e List.mem_cons_self (step :: outer)
    obtain ⟨_ | key, v, origin⟩ := e
    · rw [ofEntries, sitesOf_cons, Multiset.map_add, spread, rest', Value.referencesOfEntries,
        Multiset.coe_add]
    · rw [ofEntries, sitesOf_cons, Multiset.map_add, value, rest', Value.referencesOfEntries,
        Multiset.coe_add]

end Parts

/-- The references of a value are those of its task, each as often as it occurs. -/
theorem references_ofValue_and_ofSpread (v : Value) : ∀ here,
    ((ofValue v).sites parallel here).map Standing.reference = ↑v.references ∧
      ((ofSpread v).sites parallel here).map Standing.reference = ↑v.references := by
  induction v using Value.induct with
  | scalar s => simp [ofValue, ofSpread, Value.references]
  | reference r => simp [ofValue, ofSpread, Value.references]
  | secret inner ih =>
    intro here
    rw [ofValue, ofSpread, sites_secret, sites_secret, Value.references]
    exact ih here
  | list items ih =>
    intro here
    rw [ofValue, ofSpread, sites_ofParts, sites_join,
      references_ofItems _ _ fun v hv here => (ih v hv here).1, Value.references]
    exact ⟨rfl, rfl⟩
  | map fields ih =>
    intro here
    rw [ofValue, ofSpread, sites_ofParts, sites_join,
      references_ofFields _ _ fun f hf here => (ih f hf here).1, Value.references]
    exact ⟨rfl, rfl⟩
  | ordered entries ih =>
    intro here
    rw [ofValue, ofSpread, sites_ofParts, sites_join, references_ofEntries _ _ ih,
      Value.references]
    exact ⟨rfl, rfl⟩

/-- Whoever stands somewhere in the task of a value is a reference of the value. -/
theorem mem_references {v : Value} {here : Address} {r : Reference} :
    (∃ s ∈ (ofValue v).sites parallel here, s.reference = r) ↔ r ∈ v.references := by
  rw [← Multiset.mem_coe, ← (references_ofValue_and_ofSpread v here).1, Multiset.mem_map]

theorem mem_references_ofMap {fields : Fields} {here : Address} {r : Reference} :
    (∃ s ∈ (ofMap fields).sites parallel here, s.reference = r) ↔
      r ∈ Value.referencesOfFields fields := by
  cases fields with
  | nil => simp [ofMap, Value.referencesOfFields]
  | cons f rest =>
    rw [← Multiset.mem_coe, ← references_ofFields here
      ⟨takeTurns parallel (ofFields (f :: rest)), 0⟩
      fun f _ here => (references_ofValue_and_ofSpread f.2 here).1, Multiset.mem_map]
    rfl

end Task

namespace Rooted

variable {g : Registry} {rules : Policy} {U : Reference → Prop} {w : World}

/-- A task that begins brings in nothing but the references of its value. -/
theorem arrive_ofValue (rooted : Rooted g rules U 0 w) (parallel : Bool) {v : Value}
    (used : ∀ r ∈ v.references, U r) : Rooted g rules U ((Task.ofValue v).sites parallel []) w :=
  rooted.arrive ((Task.Unstarted.ofValue v).untouched [])
    fun s hs => used _ (Task.mem_references.mp ⟨s, hs, rfl⟩)

theorem arrive_ofMap (rooted : Rooted g rules U 0 w) (parallel : Bool) {fields : Fields}
    (used : ∀ r ∈ Value.referencesOfFields fields, U r) :
    Rooted g rules U ((Task.ofMap fields).sites parallel []) w := by
  refine rooted.arrive ?_ fun s hs => used _ (Task.mem_references_ofMap.mp ⟨s, hs, rfl⟩)
  rcases Task.ofMap_cases fields with ⟨same, -⟩ | unstarted
  · simp [same]
  · exact unstarted.untouched []

end Rooted

/-- Every outcome that is kept is what its data says, for the plain reference with that key. -/
def World.IsTruthful (w : World) (answers : Answers) : Prop :=
  ∀ key o, Assoc.get? w.resolver.cache key = some o →
    ∃ (r : Reference) (data : List String → Outcome), r.IsPlain ∧ r.key = key ∧
      answers r.alias = some (.ok data) ∧ o = data r.requestPath

theorem Rooted.isTruthful {g : Registry} {rules : Policy} {U : Reference → Prop}
    {S : Multiset Standing} {w : World} {answers : Answers} (rooted : Rooted g rules U S w)
    (follows : g.Follows rules.fetchTimeout answers) (plain : ∀ r, U r → r.IsPlain) :
    w.IsTruthful answers := by
  intro key o found
  obtain ⟨r, used, same, produces⟩ := rooted.cache key o found
  obtain ⟨data, known, outcome⟩ := follows.outcome produces
  exact ⟨r, data, plain r used, same, known, outcome⟩

end LayeredConfig
