import LayeredConfig.Proofs.Compilation.Passes
import LayeredConfig.Proofs.Resolution.SelfContained

/-!
# The normal form of resolution

Resolving a value replaces its references and composes its maps with spreads, at any depth. So
if providers return resolved data, what comes of it is resolved (`Task.Yields.isResolved`), a
plain map if a map was given (`Task.Yields.isMap`), and resolving it again changes nothing
(`World.resolve_normalForm`).
-/

namespace LayeredConfig

/-- All data that the providers of a registry return is resolved. -/
def Registry.ReturnsResolved (g : Registry) : Prop :=
  ∀ name p, g.MayAnswer name (.ok p) → ∀ trace path v, (p.fetch trace path).outcome = .ok v →
    v.IsResolved

theorem Call.outcome_eq_of_verdict {call : Call Value} {limit : Option Nat} {v : Value}
    (ended : call.verdict limit = .ok v) : call.outcome = .ok v := by
  have reported : ∀ {x : Except Failure Value}, x.mapError Cause.reported = .ok v → x = .ok v := by
    rintro (_ | _) same
    · cases same
    · cases same
      rfl
  unfold Call.verdict at ended
  split at ended
  · split at ended
    · cases ended
    · exact reported ended
  · exact reported ended

/-- Then all that a reference is told is resolved. -/
theorem Registry.ReturnsResolved.isResolved {g : Registry} (returns : g.ReturnsResolved)
    {limit : Option Nat} {U : Reference → Prop} {r : Reference} {v : Value}
    (told : g.MayTell limit U r (.ok v)) : v.IsResolved := by
  generalize found : Except.ok v = x at told
  cases told with
  | unbound free => cases found
  | refused answer => cases found
  | @outcome r' o used confused produces =>
    obtain ⟨p, trace, answer, rfl⟩ := produces
    cases fetched : (p.fetch trace r'.requestPath).verdict limit with
    | error cause => rw [fetched] at found; cases found
    | ok data =>
      have resolved := returns _ p answer trace _ data (Call.outcome_eq_of_verdict fetched)
      rw [fetched] at found
      simp only [Site.settle] at found
      split at found
      · rename_i picked
        cases found
        exact resolved.pick picked
      · cases found

/-- The value that resolved parts make is resolved. -/
theorem Shape.isResolved_of_close {shape : Shape} {vs : List (Option Value)} {u : Value}
    (all : ∀ v, some v ∈ vs → v.IsResolved) (closed : shape.close vs = .ok u) : u.IsResolved := by
  have values : ∀ v ∈ vs.filterMap id, v.IsResolved := fun v hv => all v (by simpa using hv)
  cases shape with
  | list =>
    cases closed
    exact .list values
  | map keys =>
    cases closed
    exact .map fun f hf => values f.2 (List.of_mem_zip hf).2
  | ordered heads =>
    obtain ⟨fields, composed, rfl⟩ := close_ordered_eq_ok_iff.mp closed
    exact .map <| areResolved_of_composeResolved (fun e he => all _ (mem_of_mem_assemble he))
      composed

namespace Task

variable {R : Reference → Except ResolveError Value → Prop} {lenient : Bool}

theorem Yields.isResolved_of_parts {shape : Shape} {empty : Value} {parts : List Task} {x : Value}
    (close : shape.close [] = .ok empty)
    (yields : (ofParts shape empty parts).Yields R lenient (some x))
    (all : ∀ t ∈ parts, ∀ u, t.Yields R lenient (some u) → u.IsResolved) : x.IsResolved := by
  obtain ⟨vs, u, each, closes, same⟩ := yields_join_iff.mp ((yields_ofParts_iff close).mp yields)
  cases same
  refine Shape.isResolved_of_close ?_ closes
  clear closes yields
  induction each with
  | nil => simp
  | @cons t v rest vs first others ih =>
    intro u hu
    rcases List.mem_cons.mp hu with rfl | hu
    · exact all t List.mem_cons_self u first
    · exact ih (fun t ht => all t (List.mem_cons_of_mem _ ht)) u hu

/-- What a value comes to is resolved if all data is. -/
theorem Yields.isResolved (resolved : ∀ r u, R r (.ok u) → u.IsResolved) {v : Value} :
    (∀ u, (ofValue v).Yields R lenient (some u) → u.IsResolved) ∧
      ∀ u, (ofSpread v).Yields R lenient (some u) → u.IsResolved := by
  -- A spread is resolved like another value, apart from a reference that is given up.
  have site : ∀ inSpread r u,
      (Task.site inSpread r .fresh).Yields R lenient (some u) → u.IsResolved := by
    intro inSpread r u yields
    generalize found : some u = x at yields
    cases yields with
    | found answer =>
      cases found
      exact resolved r u answer
    | givenUp allowed answer =>
      cases inSpread <;> cases found
      exact .scalar .null
  have secret : ∀ {t : Task}, (∀ u, t.Yields R lenient (some u) → u.IsResolved) →
      ∀ u, (Task.secret t).Yields R lenient (some u) → u.IsResolved := by
    intro t ih u yields
    generalize found : some u = x at yields
    cases yields with
    | secret inside =>
      obtain ⟨y, rfl, rfl⟩ := Option.map_eq_some_iff.mp found.symm
      exact .secret (ih y inside)
  induction v using Value.induct with
  | scalar s =>
    refine ⟨?_, ?_⟩
    all_goals
      rintro u (_ | _)
      exact .scalar s
  | reference r => exact ⟨site false r, site true r⟩
  | secret inner ih => exact ⟨secret ih.1, secret ih.2⟩
  | list items ih =>
    rw [ofValue, ofSpread, ofItems_eq]
    have each : ∀ u, (ofParts .list (.list []) (items.map ofValue)).Yields R lenient (some u) →
        u.IsResolved := fun u yields =>
      yields.isResolved_of_parts rfl (List.forall_mem_map.mpr fun v hv => (ih v hv).1)
    exact ⟨each, each⟩
  | map fields ih =>
    rw [ofValue, ofSpread, ofFields_eq]
    have each : ∀ u, (ofParts (.map (Assoc.keys fields)) (.map [])
        (fields.map fun f => ofValue f.2)).Yields R lenient (some u) → u.IsResolved :=
      fun u yields => yields.isResolved_of_parts (Shape.close_map_nil _)
        (List.forall_mem_map.mpr fun f hf => (ih f hf).1)
    exact ⟨each, each⟩
  | ordered entries ih =>
    rw [ofValue, ofSpread, ofEntries_eq]
    have each : ∀ u, (ofParts (.ordered (entries.map fun e => (e.key, e.origin))) (.map [])
        (entries.map ofEntry)).Yields R lenient (some u) → u.IsResolved := by
      refine fun u yields => yields.isResolved_of_parts (Shape.close_ordered_nil _)
        (List.forall_mem_map.mpr fun e he => ?_)
      rw [ofEntry]
      split
      · exact (ih e he).2
      · exact (ih e he).1
    exact ⟨each, each⟩

/-- What comes of a map is a plain map. -/
theorem Yields.isMap {v u : Value} (isMap : v.kind = .map)
    (yields : (ofValue v).Yields R lenient (some u)) : u = .map (u.asMap?.getD []) := by
  cases v with
  | map fields =>
    rw [ofValue, yields_ofParts_iff (Shape.close_map_nil _), yields_join_iff] at yields
    obtain ⟨vs, u, -, closes, same⟩ := yields
    cases same
    cases closes
    rfl
  | ordered entries =>
    rw [ofValue, yields_ofParts_iff (Shape.close_ordered_nil _), yields_join_iff] at yields
    obtain ⟨vs, u, -, closes, same⟩ := yields
    cases same
    obtain ⟨fields, -, rfl⟩ := Shape.close_ordered_eq_ok_iff.mp closes
    rfl
  | scalar s => cases s <;> cases isMap
  | _ => cases isMap

end Task

/-- A map is an input like any root of a document. -/
theorem Document.kind_root {d : Document} {c : Converted} (converts : d.convert = .ok c) :
    c.root.kind = .map := by
  obtain ⟨entries, root⟩ := Document.root_of_convert converts
  rw [root, Value.ofEntries]
  split <;> rfl

namespace World

/-- Whatever comes of resolving a value, by whatever schedule, is in normal form if providers
return resolved data: it is resolved, it is a plain map if a map was given, such as the root of
a document, and resolving it again anywhere, with a live context, gives it back and does nothing
else. Without references, no call is made and no warning sent, whatever the providers. -/
theorem resolve_normalForm (w : World) (v : Value) (idle : w.IsIdle) :
    (∃ t' w' x, w.resolve v = (some x, { w' with agenda := {} }) ∧ t'.result? = some x ∧
      Task.Runs w.resolver.policy.isParallel (.ofValue v) w t' w') ∧
    (∀ g : Registry, Rooted g w.resolver.policy (fun _ => True) 0 w → g.ReturnsResolved →
      ∀ parallel t' w' u, Task.Runs parallel (.ofValue v) w t' w' →
        t'.result? = some (.ok u) →
        u.IsResolved ∧ u.hasReferences = false ∧
        ((v.kind = .map ∨ ∃ (d : Document) (c : Converted), d.convert = .ok c ∧ c.root = v) →
          u = .map (u.asMap?.getD [])) ∧
        ∀ w'' : World, w''.interruption? = none →
          w''.resolve u = (some (.ok u), { w'' with agenda := {} })) ∧
    (v.hasReferences = false → ∀ parallel t' w', Task.Runs parallel (.ofValue v) w t' w' →
      w'.trace = w.trace) := by
  have unstarted := Task.Unstarted.ofValue v
  refine ⟨runTask_ends (idle.fit _ unstarted), ?_, ?_⟩
  · intro g rooted returns parallel t' w' u runs result
    have fit := idle.fit parallel unstarted
    -- All that the last world tells comes from providers, so it is resolved, and so is the result.
    have after := runs.keeps_all (Rooted.endures _ _ _) (rooted.arrive_ofValue parallel
      fun _ _ => trivial)
    obtain ⟨u', rfl, given⟩ : ∃ u', t' = .finished u' ∧ u = u'.getD .null := by
      cases t' with
      | finished u' =>
        cases result
        exact ⟨u', rfl, rfl⟩
      | _ => cases result
    have yields := runs.yields fit.balanced (.refl w') (.finished u')
    obtain ⟨y, rfl⟩ := yields.exists_of_ofValue
    obtain rfl : u = y := given
    have resolved : u.IsResolved :=
      (Task.Yields.isResolved fun r x told => returns.isResolved (after.mayTell told)).1 u yields
    refine ⟨resolved, resolved.hasReferences_eq_false, fun isMap => ?_, fun w'' live => ?_⟩
    · rcases isMap with isMap | ⟨d, c, converts, rfl⟩
      · exact yields.isMap isMap
      · exact yields.isMap (Document.kind_root converts)
    · exact runTask_holds live (.ofValue u) ((Task.yields_ofValue_iff resolved).mpr rfl)
  · intro none parallel t' w' runs
    exact (runs.traceless (Task.sites_ofValue_eq_zero none [])).2

/-- A provider whose data has a list with a secret in it. -/
def shelf : Provider where
  fetch _ _ := {
    delay := 2
    outcome := .ok (.map [("tags", .list [.string "red", .secret (.string "blue")])]) }

/-- A secret spread of such data, and a wildcard over it in a list. -/
def shelved : Value :=
  .ordered [⟨none, .secret (.reference { «alias» := "shelf", path := ["books"] }), {}⟩,
    ⟨some "all", .list [.reference { «alias» := "shelf", path := ["books", "*"] }], {}⟩]

theorem resolve_normalForm_shelf :
    ∃ u, (World.resolve { registry := .only [] "shelf" shelf } shelved).1 = some (.ok u) ∧
      u.IsResolved ∧ u = .map (u.asMap?.getD []) ∧
      World.resolve { resolver := { policy := { allowMissing := true } } } u
        = (some (.ok u), { resolver := { policy := { allowMissing := true } } }) ∧
      ∀ parallel t' w', Task.Runs parallel (.ofValue u) {} t' w' → w'.trace = [] := by
  have returns : (Registry.only [] "shelf" shelf).ReturnsResolved := by
    intro name p answer trace path v fetched
    obtain ⟨-, same⟩ := Registry.mayAnswer_only answer
    cases same
    cases fetched
    refine .map fun f hf => ?_
    obtain rfl := List.mem_singleton.mp hf
    refine .list fun x hx => ?_
    rcases List.mem_pair.mp hx with rfl | rfl
    · exact .scalar _
    · exact .secret (.scalar _)
  obtain ⟨⟨t', w', x, ran, result, runs⟩, normal, -⟩ := resolve_normalForm
    { registry := .only [] "shelf" shelf } shelved ⟨rfl, rfl, rfl, rfl⟩
  have ended : (World.resolve { registry := .only [] "shelf" shelf } shelved).1
      = some (.ok (.map [("tags", .secret (.list [.string "red", .secret (.string "blue")])),
        ("all", .list [.map [("tags", .list [.string "red", .secret (.string "blue")])]])])) := rfl
  rw [ran] at ended
  cases ended
  obtain ⟨resolved, none, isMap, again⟩ := normal _ (.of_fresh _ rfl _) returns _ t' w' _ runs
    result
  obtain ⟨-, -, traceless⟩ := resolve_normalForm {} _ ⟨rfl, rfl, rfl, rfl⟩
  exact ⟨_, by rw [ran], resolved, isMap (.inl rfl), again _ rfl, traceless none⟩

end World

end LayeredConfig
