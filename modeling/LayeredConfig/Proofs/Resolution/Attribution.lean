import LayeredConfig.Proofs.Resolution.Answers
import LayeredConfig.Proofs.Resolution.Growth

/-!
Whose outcome a reference receives.

A resolver finds outcomes by their keys alone, so a reference receives what was fetched for
any reference that it is confused with (`World.resolve_attribution`). Where no two
references are confused that ask for different data, each one receives its own.
-/

namespace LayeredConfig

/-- What a reference may be told, by what a registry may answer: that there is no provider for
it, or the outcome of a fetch for a reference, among those in `U`, with which it is
confused. -/
inductive Registry.MayTell (g : Registry) (limit : Option Nat) (U : Reference → Prop)
    (r : Reference) : Except ResolveError Value → Prop where
  | unbound (free : Assoc.get? g.bindings r.alias = none) :
      MayTell g limit U r (.error (.notRegistered r))
  | refused {e : SetupError} (answer : g.MayAnswer r.alias (.error e)) :
      MayTell g limit U r (.error (.unresolved r (.setup e)))
  | outcome {r' : Reference} {o : Outcome} (used : U r') (confused : r.IsConfusedWith r')
      (produces : g.Produces limit r' o) : MayTell g limit U r (Site.settle r o)

/-- What a world tells is what its registry may tell. -/
theorem Rooted.mayTell {g : Registry} {rules : Policy} {U : Reference → Prop}
    {S : Multiset Standing} {w : World} (rooted : Rooted g rules U S w) {r : Reference}
    {x : Except ResolveError Value} (told : w.Tells r x) : g.MayTell rules.fetchTimeout U r x := by
  cases told with
  | outcome cached =>
    obtain ⟨r', used, same, produces⟩ := rooted.cache _ _ cached
    exact .outcome used (Reference.key_eq_iff.mp same.symm) produces
  | unbound free => exact .unbound (rooted.registry.get?_eq_none_iff.mp free)
  | refused built => exact .refused (rooted.registry.mayAnswer (.built built))

namespace Task

variable {R : Reference → Except ResolveError Value → Prop} {lenient : Bool} {u : Option Value}

theorem Yields.exists_of_ofParts {shape : Shape} {empty : Value} {parts : List Task}
    (yields : (ofParts shape empty parts).Yields R lenient u) : ∃ x, u = some x := by
  cases parts <;> cases yields <;> exact ⟨_, rfl⟩

/-- Nothing is left out but the value of a spread. -/
theorem Yields.exists_of_ofValue {v : Value} (yields : (ofValue v).Yields R lenient u) :
    ∃ x, u = some x := by
  induction v using Value.induct generalizing u with
  | scalar s => cases yields; exact ⟨_, rfl⟩
  | reference r => cases yields <;> exact ⟨_, rfl⟩
  | secret inner ih =>
    cases yields with
    | secret inside =>
      obtain ⟨x, rfl⟩ := ih inside
      exact ⟨_, rfl⟩
  | _ =>
    rw [ofValue] at yields
    exact yields.exists_of_ofParts

end Task

namespace World

/-- A run that ends with a value has made it up from what its last world tells. -/
theorem runTask_yields {t : Task} {w : World} (fit : t.Fit w.resolver.policy.isParallel w)
    {u : Value} (ended : (w.runTask t).1 = some (.ok u)) :
    ∃ u', t.Yields (w.runTask t).2.Tells w.resolver.policy.allowMissing u' ∧ u = u'.getD .null := by
  obtain ⟨t', w', x, ran, result, runs⟩ := runTask_ends fit
  rw [ran] at ended ⊢
  cases ended
  have later : w'.Grows { w' with agenda := {} } := .of_same rfl rfl rfl
  have policy := (runs.grows fit.balanced).trans later |>.policy
  cases t' with
  | finished u' =>
    cases result
    exact ⟨u', policy ▸ runs.yields fit.balanced later (.finished u'), rfl⟩
  | _ => cases result

/-- If resolving a value ends with a value, every reference has been told something. -/
theorem exists_tells_of_resolve {w : World} {v u : Value} (idle : w.IsIdle)
    (ended : (w.resolve v).1 = some (.ok u)) {r : Reference} (hr : r ∈ v.references) :
    ∃ x, (w.resolve v).2.Tells r x := by
  obtain ⟨u', yields, -⟩ := runTask_yields (idle.fit _ (Task.Unstarted.ofValue v)) ended
  obtain ⟨s, hs, rfl⟩ : ∃ s ∈ (Task.ofValue v).sites w.resolver.policy.isParallel [],
      s.reference = r := Task.mem_references.mpr hr
  exact yields.exists_answer [] s hs

/-- What comes of resolving a value with a resolver that is used for the references in `U`. A
value is the given one with every reference replaced by what the last world tells of it. That
is an outcome which was fetched for a reference in `U` with the same key, so one that it is
confused with, and so it was fetched for the same data if no two of them are confused that ask
for different data. Resolver and registry may then be used again. -/
theorem resolve_attribution (w : World) (v : Value) (g : Registry) (U : Reference → Prop)
    (idle : w.IsIdle) (rooted : Rooted g w.resolver.policy U 0 w)
    (used : ∀ r ∈ v.references, U r) :
    (∀ (name name' : String) (path path' : List String),
      cacheKey name path = cacheKey name' path' ↔ Confused name path name' path') ∧
    ∃ x w', w.resolve v = (some x, w') ∧
      (∀ u, x = .ok u →
        (Task.ofValue v).Yields w'.Tells w.resolver.policy.allowMissing (some u)) ∧
      (∀ r y, w'.Tells r y → g.MayTell w.resolver.policy.fetchTimeout U r y) ∧
      (∀ (r : Reference) o, Assoc.get? w'.resolver.cache r.key = some o →
        ∃ r', U r' ∧ r.IsConfusedWith r' ∧ g.Produces w.resolver.policy.fetchTimeout r' o) ∧
      ((∀ r r', U r → U r' → r.IsConfusedWith r' →
          r.alias = r'.alias ∧ r.requestPath = r'.requestPath) →
        ∀ r, U r → ∀ o, Assoc.get? w'.resolver.cache r.key = some o →
          g.Produces w.resolver.policy.fetchTimeout r o) ∧
      w'.IsIdle ∧ Rooted g w.resolver.policy U 0 w' := by
  have fit := idle.fit w.resolver.policy.isParallel (Task.Unstarted.ofValue v)
  obtain ⟨t', w', x, ran, result, runs⟩ := runTask_ends fit
  have atEnd := Task.isOver_of_result result
  have balanced := runs.keeps_all Task.balanced_endures fit.balanced
  have after := runs.keeps_all (Rooted.endures _ _ _) (rooted.arrive_ofValue _ used)
  rw [Task.sites_of_isOver atEnd] at balanced after
  have kept : ∀ (r : Reference) o, Assoc.get? w'.resolver.cache r.key = some o →
      ∃ r', U r' ∧ r.IsConfusedWith r' ∧ g.Produces w.resolver.policy.fetchTimeout r' o := by
    intro r o cached
    obtain ⟨r', used', same, produces⟩ := after.cache _ _ cached
    exact ⟨r', used', Reference.key_eq_iff.mp same.symm, produces⟩
  refine ⟨fun _ _ _ _ => cacheKey_eq_iff_confused, x, _, ran, ?_,
    fun r y told => (after.plan fun _ => {}).mayTell told, kept, ?_,
    isIdle_iff.mpr (balanced.plan fun _ => {}), after.plan fun _ => {}⟩
  · rintro u rfl
    obtain ⟨u', yields, rfl⟩ := runTask_yields fit (by rw [ran])
    obtain ⟨y, rfl⟩ := yields.exists_of_ofValue
    rwa [ran] at yields
  · intro distinct r hr o cached
    obtain ⟨r', hr', confused, p, trace, answer, same⟩ := kept r o cached
    obtain ⟨aliases, paths⟩ := distinct r r' hr hr' confused
    exact ⟨p, trace, aliases ▸ answer, paths ▸ same⟩

/-- Two references to different data, with one key. -/
def confusedPair : Value :=
  .list [.reference { «alias» := "a", path := ["b/c"] },
    .reference { «alias» := "a", path := ["b", "c"] }]

theorem resolve_attribution_confusedPair :
    ∃ x w', World.resolve { registry := .only [] "a" (.echo 0) } confusedPair = (some x, w') ∧
      ∀ (r : Reference) o, Assoc.get? w'.resolver.cache r.key = some o →
        ∃ r', r' ∈ confusedPair.references ∧ r.IsConfusedWith r' ∧
          (Registry.only [] "a" (.echo 0)).Produces none r' o := by
  obtain ⟨-, x, w', ran, -, -, kept, -⟩ := resolve_attribution
    { registry := .only [] "a" (.echo 0) } confusedPair _ (· ∈ confusedPair.references)
    ⟨rfl, rfl, rfl, rfl⟩ (Rooted.of_fresh { registry := .only [] "a" (.echo 0) } rfl _)
    fun _ hr => hr
  exact ⟨x, w', ran, kept⟩

/-- The second reference receives what was fetched for the first one. -/
example : (World.resolve { registry := .only [] "a" (.echo 0) } confusedPair).1
    = some (.ok (.list [.string "b/c", .string "b/c"])) := by rfl

end World

end LayeredConfig
