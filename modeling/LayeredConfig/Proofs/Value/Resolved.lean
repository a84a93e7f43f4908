import LayeredConfig.Proofs.Merge.Mapping
import LayeredConfig.Proofs.Value.Induction
import LayeredConfig.Value.Path

/-!
# Resolved values

A value is resolved if no reference and no map with spreads is left in it, at any depth.
Nothing that is done to the data of a provider brings one back: paths and wildcards lead to
parts (`Value.IsResolved.pick`), and the map that resolved entries compose to has their values
for its fields (`areResolved_of_composeResolved`).
-/

namespace LayeredConfig

/-- Neither a reference nor a map with spreads is left in a value. -/
inductive Value.IsResolved : Value → Prop where
  | scalar (s : Scalar) : IsResolved (.scalar s)
  | list {items : List Value} (all : ∀ v ∈ items, IsResolved v) : IsResolved (.list items)
  | map {fields : Fields} (all : ∀ f ∈ fields, IsResolved f.2) : IsResolved (.map fields)
  | secret {inner : Value} (inside : IsResolved inner) : IsResolved (.secret inner)

namespace Value

/-! ### What is left in containers -/

theorem anyReferences_eq_any (items : List Value) :
    anyReferences items = items.any hasReferences := by
  induction items with
  | nil => rfl
  | cons v rest ih => rw [anyReferences, ih, List.any_cons]

theorem fieldReferences_eq_any (fields : List (String × Value)) :
    fieldReferences fields = fields.any fun f => f.2.hasReferences := by
  induction fields with
  | nil => rfl
  | cons f rest ih => rw [fieldReferences, ih, List.any_cons]

end Value

namespace Value.IsResolved

variable {v u : Value}

theorem hasReferences_eq_false (resolved : v.IsResolved) : v.hasReferences = false := by
  induction resolved with
  | scalar s => rfl
  | secret inside ih => exact ih
  | list all ih =>
    rw [hasReferences, anyReferences_eq_any, List.any_eq_false]
    exact fun v hv => by simp [ih v hv]
  | map all ih =>
    rw [hasReferences, fieldReferences_eq_any, List.any_eq_false]
    exact fun f hf => by simp [ih f hf]

/-! ### Paths lead to parts -/

theorem child? {segment : String} (resolved : v.IsResolved) (found : v.child? segment = some u) :
    u.IsResolved := by
  induction resolved with
  | scalar s => cases found
  | @list items all =>
    rw [Value.child?] at found
    obtain ⟨i, -, there⟩ := Option.bind_eq_some_iff.mp found
    exact all u (List.mem_of_getElem? there)
  | map all => exact all _ (Assoc.mem_of_get? found)
  | secret inside ih => exact ih found

theorem follow? {path : List String} (resolved : v.IsResolved) (found : v.follow? path = some u) :
    u.IsResolved := by
  induction path generalizing v with
  | nil =>
    cases found
    exact resolved
  | cons segment rest ih =>
    rw [Value.follow?] at found
    obtain ⟨next, there, found⟩ := Option.bind_eq_some_iff.mp found
    exact ih (resolved.child? there) found

theorem pickEach {path : List String} (resolved : v.IsResolved)
    (picked : v.pickEach path = .ok u) : u.IsResolved := by
  induction resolved generalizing u with
  | scalar s => cases picked
  | @list items all =>
    cases picked
    refine .list fun x hx => ?_
    obtain ⟨item, inside, found⟩ := List.mem_filterMap.mp hx
    exact (all item inside).follow? found
  | @map fields all =>
    cases picked
    refine .map fun g hg => ?_
    obtain ⟨f, inside, found⟩ := List.mem_filterMap.mp hg
    obtain ⟨x, followed, rfl⟩ := Option.map_eq_some_iff.mp found
    exact (all f inside).follow? followed
  | @secret inner inside ih =>
    rw [Value.pickEach] at picked
    cases below : inner.pickEach path with
    | error found => rw [below] at picked; cases picked
    | ok x =>
      rw [below] at picked
      cases picked
      exact .secret (ih below)

/-- What a reference asks for in resolved data is resolved. -/
theorem pick {path : List String} (resolved : v.IsResolved) (picked : v.pick path = .ok u) :
    u.IsResolved := by
  unfold Value.pick at picked
  split at picked
  · cases picked
    exact resolved
  · exact resolved.pickEach picked

end Value.IsResolved

/-! ### Composition -/

/-- All fields are resolved. -/
def Fields.AreResolved (fields : Fields) : Prop := ∀ f ∈ fields, f.2.IsResolved

theorem areResolved_insertLast {m : Fields} {key : String} {v : Value}
    (resolved : Fields.AreResolved m) (here : v.IsResolved) :
    Fields.AreResolved (Assoc.insertLast m key v) := by
  intro f hf
  rw [Assoc.insertLast, Assoc.erase_eq_filter, List.mem_append, List.mem_singleton] at hf
  rcases hf with hf | rfl
  · exact resolved f (List.mem_filter.mp hf).1
  · exact here

theorem areResolved_writeLast {m fields : Fields} (resolved : Fields.AreResolved m)
    (more : Fields.AreResolved fields) : Fields.AreResolved (writeLast m fields) := by
  induction fields generalizing m with
  | nil => exact resolved
  | cons f fields ih =>
    exact ih (areResolved_insertLast resolved (more f List.mem_cons_self))
      fun g hg => more g (List.mem_cons_of_mem _ hg)

/-- A spread of a resolved value contributes resolved fields. -/
theorem areResolved_of_spreadFields {v : Value} {origin : Origin} {fields : Fields}
    (resolved : v.IsResolved)
    (spread : (spreadFields rejectReference origin v).settled = some fields) :
    Fields.AreResolved fields := by
  induction resolved generalizing fields with
  | scalar s => cases spread
  | list all => cases spread
  | map all =>
    cases spread
    exact all
  | @secret inner inside ih =>
    rw [spreadFields, settled_bind] at spread
    obtain ⟨below, spread', settled⟩ := Option.bind_eq_some_iff.mp spread
    cases settled
    intro f hf
    obtain ⟨g, hg, rfl⟩ := List.mem_map.mp hf
    exact .secret (ih spread' g hg)

theorem areResolved_of_composeOnto {entries : List (Entry Value)} {m fields : Fields}
    (all : ∀ e ∈ entries, e.value.IsResolved) (resolved : Fields.AreResolved m)
    (composed : (composeOnto rejectReference m entries).settled = some fields) :
    Fields.AreResolved fields := by
  induction entries generalizing m with
  | nil =>
    cases composed
    exact resolved
  | cons e entries ih =>
    have here := all e List.mem_cons_self
    have others := fun e he => all e (List.mem_cons_of_mem _ he)
    obtain ⟨_ | key, v, origin⟩ := e
    · rw [composeOnto, settled_bind] at composed
      obtain ⟨below, spread, composed⟩ := Option.bind_eq_some_iff.mp composed
      exact ih others (areResolved_writeLast resolved (areResolved_of_spreadFields here spread))
        composed
    · exact ih others (areResolved_insertLast resolved here) composed

/-- Resolved entries compose to resolved fields. -/
theorem areResolved_of_composeResolved {entries : List (Entry Value)} {fields : Fields}
    (all : ∀ e ∈ entries, e.value.IsResolved) (composed : composeResolved entries = .ok fields) :
    Fields.AreResolved fields := by
  have settled : (composeOnto rejectReference [] entries).settled = some fields :=
    congrArg Except.toOption composed
  exact areResolved_of_composeOnto all (fun f hf => absurd hf List.not_mem_nil) settled

end LayeredConfig
