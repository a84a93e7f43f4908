import LayeredConfig.Proofs.Merge.Composition
import LayeredConfig.Proofs.Resolution.Substitution
import LayeredConfig.Proofs.Value.Fields

/-!
# Keys that are written again

Keyed entries make a plain map, in which a repeated key keeps its first place and its last
value, so the values that it had before are never looked at. With a spread among them, even one
that contributes nothing, the entries make a map with spreads: all of them are resolved, and of
a repeated key the last place counts, with the last value. If the map with spreads comes to a
map, the plain one comes to the same map up to the order of keys (`World.resolve_shadowed`); the
other way round it may not, since a value that is never looked at may have no data.
-/

namespace LayeredConfig

/-! ### Pairs written one after the other -/

namespace Assoc

variable {α : Type}

/-- Whether the first or the last place of a repeated key counts makes a difference for nothing
but the order. -/
theorem lastOnly_perm_ofList (pairs : List (String × α)) :
    (lastOnly pairs).Perm (ofList pairs) := by
  refine (perm_iff_get? ?_ (nodup_keys_ofList pairs)).mpr fun key => ?_
  · rw [keys_lastOnly]
    exact List.nodup_dedup _
  · rw [get?_lastOnly, get?_ofList]

end Assoc

/-! ### Evaluating keyed entries -/

namespace Value

section Evaluating

variable {answers : Answers} {lenient : Bool}

theorem evalFields_append (front back : List (String × Value)) :
    evalFields answers lenient (front ++ back) = do
      return (← evalFields answers lenient front) ++ (← evalFields answers lenient back) := by
  induction front with
  | nil => simp [evalFields]
  | cons f front ih =>
    rw [List.cons_append, evalFields, evalFields, ih]
    simp only [bind_assoc, pure_bind, List.cons_append]

/-- Evaluated fields of which one is written with an evaluated value. -/
theorem evalFields_insert {m m' : Fields} {v v' : Value} (key : String)
    (fields : evalFields answers lenient m = some m') (value : v.eval answers lenient = some v') :
    evalFields answers lenient (Assoc.insert m key v) = some (Assoc.insert m' key v') := by
  induction m generalizing m' with
  | nil =>
    cases fields
    rw [Assoc.insert, evalFields, value]
    rfl
  | cons f m ih =>
    rw [evalFields] at fields
    simp only [Option.bind_eq_bind, Option.bind_eq_some_iff, Option.pure_def,
      Option.some.injEq] at fields
    obtain ⟨u, first, rest, others, rfl⟩ := fields
    rw [Assoc.insert, Assoc.insert]
    split
    · rw [evalFields, value, others]
      rfl
    · rw [evalFields, first, ih others]
      rfl

/-- Of evaluated pairs the same ones are shadowed as of the pairs themselves. -/
theorem evalFields_ofList {pairs evaluated : List (String × Value)}
    (fields : evalFields answers lenient pairs = some evaluated) :
    evalFields answers lenient (Assoc.ofList pairs) = some (Assoc.ofList evaluated) := by
  induction pairs using List.reverseRecOn generalizing evaluated with
  | nil =>
    cases fields
    rfl
  | append_singleton pairs p ih =>
    simp only [evalFields_append, evalFields, Option.bind_eq_bind, Option.bind_eq_some_iff,
      Option.pure_def, Option.some.injEq] at fields
    obtain ⟨front, before, _, ⟨v, value, _, rfl, rfl⟩, rfl⟩ := fields
    rw [Assoc.ofList_concat, Assoc.ofList_concat]
    exact evalFields_insert p.1 (ih before) value

/-- Entries that evaluate are evaluated pair by pair, and spreads of plain maps are kept. -/
theorem evalFields_pairs {entries evaluated : List (Entry Value)}
    (keyed : ∀ e ∈ entries, e.isSpread = false)
    (whole : evalEntries answers lenient entries = some evaluated) :
    evalFields answers lenient (pairs entries) = some (pairs evaluated) ∧
      ∀ e ∈ evaluated, e.isSpread = false := by
  induction entries generalizing evaluated with
  | nil =>
    cases whole
    exact ⟨rfl, by simp⟩
  | cons e entries ih =>
    obtain ⟨_ | key, v, origin⟩ := e
    · cases keyed _ List.mem_cons_self
    rw [evalEntries] at whole
    simp only [Option.bind_eq_bind, Option.bind_eq_some_iff, Option.pure_def,
      Option.some.injEq] at whole
    obtain ⟨u, value, rest, others, rfl⟩ := whole
    obtain ⟨fields, keyed'⟩ := ih (fun e he => keyed e (List.mem_cons_of_mem _ he)) others
    refine ⟨?_, List.forall_mem_cons.mpr ⟨rfl, keyed'⟩⟩
    have here : pairs (⟨some key, v, origin⟩ :: entries) = (key, v) :: pairs entries := rfl
    rw [here, evalFields, value, fields]
    rfl

theorem evalEntries_append (front back : List (Entry Value)) :
    evalEntries answers lenient (front ++ back) = do
      return (← evalEntries answers lenient front) ++ (← evalEntries answers lenient back) := by
  induction front with
  | nil => simp [evalEntries]
  | cons e front ih =>
    obtain ⟨_ | key, v, origin⟩ := e
    · rw [List.cons_append, evalEntries, evalEntries, ih]
      split
      · rfl
      · simp only [bind_assoc, pure_bind, List.cons_append]
    · rw [List.cons_append, evalEntries, evalEntries, ih]
      simp only [bind_assoc, pure_bind, List.cons_append]

end Evaluating

/-! ### A spread that contributes nothing -/

theorem flatten_append (front back : List (Entry Value)) :
    flatten (front ++ back) = flatten front ++ flatten back := by
  induction front with
  | nil => rfl
  | cons e front ih =>
    obtain ⟨_ | key, v, origin⟩ := e
    · rw [List.cons_append, flatten, flatten, ih, List.append_assoc]
    · rw [List.cons_append, flatten, flatten, ih, List.cons_append]

theorem flatten_of_keyed {entries : List (Entry Value)}
    (keyed : ∀ e ∈ entries, e.isSpread = false) :
    flatten entries = (pairs entries).map fun f => .field f.1 f.2 := by
  induction entries with
  | nil => rfl
  | cons e entries ih =>
    obtain ⟨_ | key, v, origin⟩ := e
    · cases keyed _ List.mem_cons_self
    · rw [flatten, ih fun e he => keyed e (List.mem_cons_of_mem _ he)]
      rfl

theorem composeResolved_of_keyed {front back : List (Entry Value)}
    (keyed : ∀ e ∈ front ++ back, e.isSpread = false) (origin : Origin) :
    composeResolved (front ++ ⟨none, .map [], origin⟩ :: back)
      = .ok (Assoc.lastOnly (pairs (front ++ back))) := by
  have flat : flatten (front ++ ⟨none, .map [], origin⟩ :: back)
      = (pairs (front ++ back)).map fun f => .field f.1 f.2 := by
    rw [flatten_append, flatten, flattenSpread, List.map_nil, List.nil_append, ← flatten_append,
      flatten_of_keyed keyed]
  rw [composeResolved, compose_eq, flat, gather_fields]
  rfl

theorem ofEntries_of_spread (front back : List (Entry Value)) (v : Value) (origin : Origin) :
    ofEntries (front ++ ⟨none, v, origin⟩ :: back)
      = .ordered (front ++ ⟨none, v, origin⟩ :: back) := by
  rw [ofEntries, if_pos]
  simp [Entry.isSpread]

section Shadowing

variable {front back : List (Entry Value)} {origin : Origin}

/-- If keyed entries come to a map where a spread keeps all of them, they come to the same map,
up to the order of keys, where repeated keys are shadowed first. -/
theorem eval_shadowed {answers : Answers} {lenient : Bool} {u : Value}
    (keyed : ∀ e ∈ front ++ back, e.isSpread = false)
    (whole : (ofEntries (front ++ ⟨none, .map [], origin⟩ :: back)).eval answers lenient = some u) :
    ∃ m n : Fields, u = .map m ∧
      (ofEntries (front ++ back)).eval answers lenient = some (.map n) ∧
      (Assoc.keys n).Nodup ∧ m.Perm n := by
  have nothing : (Value.map []).eval answers lenient = some (.map []) := rfl
  rw [ofEntries_of_spread, eval] at whole
  simp only [evalEntries_append, evalEntries, isMissing, Bool.and_false, Bool.false_eq_true,
    if_false, nothing, Option.bind_eq_bind, Option.bind_some, Option.bind_eq_some_iff,
    Option.pure_def, Option.some.injEq, Option.map_eq_some_iff] at whole
  obtain ⟨_, ⟨first, before, _, ⟨last, after, rfl⟩, rfl⟩, fields, composed, rfl⟩ := whole
  have all : evalEntries answers lenient (front ++ back) = some (first ++ last) := by
    rw [evalEntries_append, before, after]
    rfl
  obtain ⟨evaluated, keyed'⟩ := evalFields_pairs keyed all
  rw [composeResolved_of_keyed keyed'] at composed
  cases composed
  refine ⟨_, _, rfl, ?_, Assoc.nodup_keys_ofList _, Assoc.lastOnly_perm_ofList _⟩
  rw [ofEntries_of_keyed keyed, eval, evalFields_ofList evaluated]
  rfl

theorem mem_referencesOfFields {fields : List (String × Value)} {r : Reference} :
    r ∈ referencesOfFields fields ↔ ∃ f ∈ fields, r ∈ f.2.references := by
  induction fields with
  | nil => simp [referencesOfFields]
  | cons f rest ih => simp [referencesOfFields, ih]

theorem mem_referencesOfEntries {entries : List (Entry Value)} {r : Reference} :
    r ∈ referencesOfEntries entries ↔ ∃ e ∈ entries, r ∈ e.value.references := by
  induction entries with
  | nil => simp [referencesOfEntries]
  | cons e rest ih => simp [referencesOfEntries, ih]

theorem references_ofEntries_of_keyed {entries : List (Entry Value)}
    (keyed : ∀ e ∈ entries, e.isSpread = false) {r : Reference}
    (inside : r ∈ (ofEntries entries).references) : ∃ e ∈ entries, r ∈ e.value.references := by
  rw [ofEntries_of_keyed keyed, references] at inside
  obtain ⟨f, hf, inside⟩ := mem_referencesOfFields.mp inside
  obtain ⟨e, he, made⟩ := List.mem_filterMap.mp (Assoc.mem_of_mem_ofList hf)
  obtain ⟨key, -, rfl⟩ := Option.map_eq_some_iff.mp made
  exact ⟨e, he, inside⟩

theorem references_ofEntries_of_spread {r : Reference}
    (inside : r ∈ (ofEntries (front ++ ⟨none, .map [], origin⟩ :: back)).references) :
    ∃ e ∈ front ++ back, r ∈ e.value.references := by
  rw [ofEntries_of_spread, references] at inside
  obtain ⟨e, he, inside⟩ := mem_referencesOfEntries.mp inside
  rcases List.mem_append.mp he with he | he
  · exact ⟨e, List.mem_append_left _ he, inside⟩
  · rcases List.mem_cons.mp he with rfl | he
    · cases inside
    · exact ⟨e, List.mem_append_right _ he, inside⟩

end Shadowing

end Value

/-! ### Resolving keyed entries -/

namespace World

/-- If a map with spreads whose only spread contributes nothing comes to a value, wherever that
spread stands, then the plain map that the other entries make comes to the same map with a fresh
resolver, up to the order of keys, whatever the schedule of either run. -/
theorem resolve_shadowed (w : World) (front back : List (Entry Value)) (origin : Origin)
    (answers : Answers) (u : Value) (idle : w.IsIdle) (fresh : w.resolver.cache = [])
    (follows : w.registry.Follows w.resolver.policy.fetchTimeout answers)
    (keyed : ∀ e ∈ front ++ back, e.isSpread = false)
    (plain : ∀ e ∈ front ++ back, ∀ r ∈ e.value.references, r.IsPlain)
    (resolved : (w.resolve (.ofEntries (front ++ ⟨none, .map [], origin⟩ :: back))).1
      = some (.ok u))
    (uninterrupted : (w.resolve (.ofEntries (front ++ back))).2.interruption? = none) :
    ∃ m n : Fields, u = .map m ∧
      (w.resolve (.ofEntries (front ++ back))).1 = some (.ok (.map n)) ∧
      (Assoc.keys n).Nodup ∧ m.Perm n := by
  have rooted := Rooted.of_fresh w fresh Reference.IsPlain
  have comes := fun {v : Value} => resolve_eval (v := v) follows (fun _ h => h) idle rooted
  obtain ⟨x, w', ran, ended, -⟩ := comes fun r hr => by
    obtain ⟨e, he, inside⟩ := Value.references_ofEntries_of_spread hr
    exact plain e he r inside
  obtain ⟨y, w'', ran', ended', -⟩ := comes fun r hr => by
    obtain ⟨e, he, inside⟩ := Value.references_ofEntries_of_keyed keyed hr
    exact plain e he r inside
  rw [ran] at resolved
  cases resolved
  rw [ran'] at uninterrupted ⊢
  -- A run that comes to a value has not been interrupted.
  have whole := ended.resolve_right fun gone => by cases gone.1
  have same := ended'.resolve_right fun gone => by simp [uninterrupted] at gone
  obtain ⟨m, n, rfl, found, kept⟩ := Value.eval_shadowed keyed whole.symm
  rw [found, toOption_eq_some_iff] at same
  exact ⟨m, n, rfl, by rw [same], kept⟩

/-- A host that is written again behind a port. -/
def rewritten : List (Entry Value) :=
  [⟨some "host", .reference { «alias» := "app", path := ["old"] }, {}⟩,
    ⟨some "port", .string "80", {}⟩,
    ⟨some "host", .reference { «alias» := "app", path := ["new"] }, {}⟩]

theorem resolve_shadowed_rewritten :
    ∃ m n : Fields, Value.map [("port", .string "80"), ("host", .string "new")] = .map m ∧
      (World.resolve { registry := .only [] "app" (.echo 5) } (.ofEntries ([] ++ rewritten))).1
        = some (.ok (.map n)) ∧
      (Assoc.keys n).Nodup ∧ m.Perm n :=
  resolve_shadowed { registry := .only [] "app" (.echo 5) } [] rewritten {} _ _
    ⟨rfl, rfl, rfl, rfl⟩ rfl (Registry.follows_only fun _ _ => rfl) (by decide) (by decide) rfl
    (by decide)

/-- The place of the host differs: with a spread the last one counts, without one the first. -/
example :
    (World.resolve { registry := .only [] "app" (.echo 5) } (.ofEntries rewritten)).1
      = some (.ok (.map [("host", .string "new"), ("port", .string "80")])) :=
  rfl

end World

end LayeredConfig
