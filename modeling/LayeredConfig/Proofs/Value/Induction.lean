import LayeredConfig.Value.Basic

/-!
Induction over values.

What holds of all parts of a value holds of the whole; and a list of parts is taken apart
like any other list.
-/

namespace LayeredConfig.Value

/-- Induction over a value, with the parts of a container as a list. -/
@[elab_as_elim]
theorem induct {P : Value → Prop} (scalar : ∀ s, P (.scalar s))
    (list : ∀ items, (∀ v ∈ items, P v) → P (.list items))
    (map : ∀ fields, (∀ f ∈ fields, P f.2) → P (.map fields))
    (ordered : ∀ entries, (∀ e ∈ entries, P e.value) → P (.ordered entries))
    (reference : ∀ r, P (.reference r)) (secret : ∀ inner, P inner → P (.secret inner)) :
    ∀ v, P v
  | .scalar s => scalar s
  | .list items => list items fun v hv =>
    have := List.sizeOf_lt_of_mem hv
    induct scalar list map ordered reference secret v
  | .map fields => map fields fun (key, v) hf =>
    have := List.sizeOf_lt_of_mem hf
    induct scalar list map ordered reference secret v
  | .ordered entries => ordered entries fun ⟨key, v, origin⟩ he =>
    have := List.sizeOf_lt_of_mem he
    induct scalar list map ordered reference secret v
  | .reference r => reference r
  | .secret inner => secret inner (induct scalar list map ordered reference secret inner)
decreasing_by all_goals simp_all <;> omega

end LayeredConfig.Value
