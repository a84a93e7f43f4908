import LayeredConfig.Merge.Spread

/-!
# Composition does not look into values

Composition moves values about and looks into the values of spreads alone. So a map on
values that keeps what spreads contribute, up to itself, passes through it
(`toOption_composeResolved_map`): the entries with their values mapped compose exactly if the
entries do, to the same keys in the same order, with the values mapped.
-/

namespace LayeredConfig

/-- An entry with its value mapped. -/
def Entry.map {α β : Type} (f : α → β) (e : Entry α) : Entry β :=
  { key := e.key, value := f e.value, origin := e.origin }

section Settled

variable {α β : Type}

/-- What a composition without a caller comes to, whatever the reason if it fails. -/
def Composing.settled (c : Composing Unit α) : Option α := (c.run.run ()).1.toOption

theorem settled_pure (a : α) : Composing.settled (pure a) = some a := rfl

theorem settled_bind (c : Composing Unit α) (f : α → Composing Unit β) :
    Composing.settled (c >>= f) = c.settled.bind fun a => (f a).settled := by
  unfold Composing.settled
  rw [ExceptT.run_bind, StateT.run_bind]
  obtain ⟨_ | a, s⟩ : Except SpreadError α × Unit := c.run.run ()
  · rfl
  · rfl

end Settled

theorem writeLast_mapValues (f : Value → Value) (m fields : Fields) :
    writeLast (Assoc.mapValues f m) (Assoc.mapValues f fields)
      = Assoc.mapValues f (writeLast m fields) := by
  induction fields generalizing m with
  | nil => rfl
  | cons p fields ih =>
    obtain ⟨key, v⟩ := p
    have mapped := ih (Assoc.insertLast m key v)
    rw [← Assoc.insertLast_mapValues] at mapped
    exact mapped

section Composition

variable {f : Value → Value} {entries : List (Entry Value)}

/-- Entries with their values mapped are applied to a mapped map as the entries are to the map,
if what each spread contributes is mapped with it. -/
theorem composeOnto_map
    (spreads : ∀ e ∈ entries, ∀ origin, (spreadFields rejectReference origin (f e.value)).settled
      = (spreadFields rejectReference origin e.value).settled.map (Assoc.mapValues f))
    (m : Fields) :
    (composeOnto rejectReference (Assoc.mapValues f m) (entries.map (Entry.map f))).settled
      = (composeOnto rejectReference m entries).settled.map (Assoc.mapValues f) := by
  induction entries generalizing m with
  | nil => simp [composeOnto, settled_pure]
  | cons e entries ih =>
    have ih := ih fun e he => spreads e (List.mem_cons_of_mem _ he)
    obtain ⟨_ | key, v, origin⟩ := e
    · have contributed := spreads _ List.mem_cons_self origin
      dsimp only at contributed
      simp only [List.map_cons, Entry.map, composeOnto, settled_bind, contributed]
      cases (spreadFields rejectReference origin v).settled with
      | none => rfl
      | some fields => simpa [writeLast_mapValues] using ih (writeLast m fields)
    · simp only [List.map_cons, Entry.map, composeOnto, Assoc.insertLast_mapValues]
      exact ih (Assoc.insertLast m key v)

/-- Entries with their values mapped compose exactly if the entries do, and to the same fields
with the values mapped. -/
theorem toOption_composeResolved_map
    (spreads : ∀ e ∈ entries, ∀ origin, (spreadFields rejectReference origin (f e.value)).settled
      = (spreadFields rejectReference origin e.value).settled.map (Assoc.mapValues f)) :
    (composeResolved (entries.map (Entry.map f))).toOption
      = (composeResolved entries).toOption.map (Assoc.mapValues f) :=
  composeOnto_map spreads []

end Composition

end LayeredConfig
