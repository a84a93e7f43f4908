import LayeredConfig.Proofs.Merge.Mapping
import LayeredConfig.Proofs.Value.Induction
import LayeredConfig.Value.Path

/-!
# Values without their secrets

`Value.reveal` takes every secret off a value and keeps what it holds. Each of the functions
that look into a value passes through secrets in its own way: a path goes through them
(`Value.follow?_reveal`), a wildcard keeps its result secret (`Value.pickEach_reveal`), a spread
makes its fields secret (`composeResolved_reveal`). All of them commute with `reveal`.
-/

namespace LayeredConfig

namespace Value

/-- Whether a value is a secret as a whole. -/
def isSecret : Value → Bool
  | .secret _ => true
  | _ => false

mutual
/-- Take every secret off a value, at any depth. -/
def reveal : Value → Value
  | .scalar s => .scalar s
  | .list items => .list (revealItems items)
  | .map fields => .map (revealFields fields)
  | .ordered entries => .ordered (revealEntries entries)
  | .reference r => .reference r
  | .secret inner => reveal inner

def revealItems : List Value → List Value
  | [] => []
  | v :: rest => reveal v :: revealItems rest

def revealFields : List (String × Value) → List (String × Value)
  | [] => []
  | (key, v) :: rest => (key, reveal v) :: revealFields rest

def revealEntries : List (Entry Value) → List (Entry Value)
  | [] => []
  | ⟨key, v, origin⟩ :: rest => ⟨key, reveal v, origin⟩ :: revealEntries rest
end

theorem revealItems_eq_map (items : List Value) : revealItems items = items.map reveal := by
  induction items with
  | nil => rfl
  | cons v rest ih => rw [revealItems, ih, List.map_cons]

theorem revealFields_eq_mapValues (fields : List (String × Value)) :
    revealFields fields = Assoc.mapValues reveal fields := by
  induction fields with
  | nil => rfl
  | cons f rest ih =>
    obtain ⟨key, v⟩ := f
    rw [revealFields, ih]
    rfl

theorem revealEntries_eq_map (entries : List (Entry Value)) :
    revealEntries entries = entries.map (Entry.map reveal) := by
  induction entries with
  | nil => rfl
  | cons e rest ih =>
    obtain ⟨key, v, origin⟩ := e
    rw [revealEntries, ih]
    rfl

theorem reveal_list (items : List Value) : (list items).reveal = .list (items.map reveal) := by
  rw [reveal, revealItems_eq_map]

theorem reveal_map (fields : Fields) :
    (map fields).reveal = .map (Assoc.mapValues reveal fields) := by
  rw [reveal, revealFields_eq_mapValues]

theorem reveal_ordered (entries : List (Entry Value)) :
    (ordered entries).reveal = .ordered (entries.map (Entry.map reveal)) := by
  rw [reveal, revealEntries_eq_map]

/-! ### Paths -/

/-- A segment leads to the same part, secret or not. -/
theorem child?_reveal (segment : String) (v : Value) :
    v.reveal.child? segment = (v.child? segment).map reveal := by
  induction v using Value.induct with
  | scalar s => rfl
  | reference r => rfl
  | ordered entries => rw [reveal_ordered]; rfl
  | list items =>
    rw [reveal_list, child?, child?]
    cases index? segment with
    | none => rfl
    | some i => simp
  | map fields => rw [reveal_map, child?, child?, Assoc.get?_mapValues]
  | secret inner ih => rw [reveal, child?, ih]

/-- So does a path. -/
theorem follow?_reveal (path : List String) (v : Value) :
    v.reveal.follow? path = (v.follow? path).map reveal := by
  induction path generalizing v with
  | nil => rfl
  | cons segment rest ih =>
    rw [follow?, follow?, child?_reveal]
    cases v.child? segment with
    | none => rfl
    | some u => exact ih u

/-- A wildcard finds the same entries, without their secrets, or a value of the same kind. -/
theorem pickEach_reveal (path : List String) (v : Value) :
    v.reveal.pickEach path = (v.pickEach path).map reveal := by
  induction v using Value.induct with
  | scalar s => rfl
  | reference r => rfl
  | ordered entries => rw [reveal_ordered]; rfl
  | list items =>
    rw [reveal_list, pickEach, pickEach, Except.map, reveal_list, List.filterMap_map,
      List.map_filterMap]
    simp only [Function.comp_def, follow?_reveal]
  | map fields =>
    rw [reveal_map, pickEach, pickEach, Except.map, reveal_map, Assoc.mapValues,
      Assoc.mapValues, List.filterMap_map, List.map_filterMap]
    simp only [Function.comp_def, follow?_reveal, Option.map_map]
  | secret inner ih =>
    rw [reveal, pickEach, ih]
    cases inner.pickEach path with
    | error found => rfl
    | ok u => simp [Except.map, reveal]

/-- What is picked is the same but for secrets, with and without a wildcard. -/
theorem pick_reveal (path : List String) (v : Value) :
    v.reveal.pick path = (v.pick path).map reveal := by
  rw [pick, pick]
  split
  · rfl
  · exact pickEach_reveal path v

end Value

/-! ### Spreads -/

/-- A spread whose secrets are off contributes the same fields without their secrets. -/
theorem settled_spreadFields_reveal (v : Value) (origin : Origin) :
    (spreadFields rejectReference origin v.reveal).settled
      = (spreadFields rejectReference origin v).settled.map (Assoc.mapValues Value.reveal) := by
  induction v using Value.induct generalizing origin with
  | scalar s => rfl
  | reference r => rfl
  | list items => rw [Value.reveal_list]; rfl
  | map fields => rw [Value.reveal_map]; rfl
  | ordered entries ih =>
    rw [Value.reveal_ordered, spreadFields, spreadFields]
    exact composeOnto_map ih []
  | secret inner ih =>
    have off : Assoc.mapValues Value.reveal ∘ Assoc.mapValues .secret
        = Assoc.mapValues Value.reveal := by
      funext fields
      simp [Assoc.mapValues, Value.reveal]
    rw [Value.reveal, ih, spreadFields, settled_bind]
    cases (spreadFields rejectReference origin inner).settled with
    | none => rfl
    | some fields => exact congrArg some (congrFun off fields).symm

/-- Entries whose secrets are off compose exactly if the entries do, and to the same fields
without their secrets. -/
theorem composeResolved_reveal (entries : List (Entry Value)) :
    (composeResolved (entries.map (Entry.map Value.reveal))).toOption
      = (composeResolved entries).toOption.map (Assoc.mapValues Value.reveal) :=
  toOption_composeResolved_map fun e _ => settled_spreadFields_reveal e.value

end LayeredConfig
