import LayeredConfig.Proofs.Resolution.Start

/-!
What a run finds out stays.

Outcomes under their keys, and how the building of a provider ended, are written once and
never again (`World.Grows`). So whatever a reference has come to can be read off the world
in which the run ends (`World.Tells`). A task yields a value (`Task.Yields`) if each of its
references may come to something that makes up that value, and if a run ends with a value,
the task that it began with yields this value by what the last world says
(`Task.Runs.yields`).
-/

namespace LayeredConfig

/-! ### Growing worlds -/

namespace World

/-- A world in which all that another one has found out is still there. -/
structure Grows (w w' : World) : Prop where
  policy : w'.resolver.policy = w.resolver.policy
  outcomes : ∀ key o, Assoc.get? w.resolver.cache key = some o →
    Assoc.get? w'.resolver.cache key = some o
  bindings : ∀ name, w.registry.isUnbuilt name = false →
    Assoc.get? w'.registry.bindings name = Assoc.get? w.registry.bindings name

namespace Grows

variable {w w' w'' : World}

theorem of_same (policy : w'.resolver.policy = w.resolver.policy)
    (cache : w'.resolver.cache = w.resolver.cache)
    (bindings : w'.registry.bindings = w.registry.bindings) : w.Grows w' :=
  ⟨policy, fun _ _ found => by rwa [cache], fun _ _ => by rw [bindings]⟩

theorem refl (w : World) : w.Grows w := of_same rfl rfl rfl

theorem isUnbuilt (grows : w.Grows w') {name : String}
    (built : w.registry.isUnbuilt name = false) : w'.registry.isUnbuilt name = false := by
  rw [← built]
  unfold Registry.isUnbuilt
  rw [grows.bindings name built]

theorem trans (first : w.Grows w') (next : w'.Grows w'') : w.Grows w'' where
  policy := next.policy.trans first.policy
  outcomes key o found := next.outcomes key o (first.outcomes key o found)
  bindings name built :=
    (next.bindings name (first.isUnbuilt built)).trans (first.bindings name built)

/-- The building of a provider ends once. -/
theorem setBuilt {name : String} (unbuilt : w.registry.isUnbuilt name = true)
    (result : Except SetupError Provider) :
    w.Grows (w.updateRegistry (·.setBuilt name result)) := by
  refine ⟨rfl, fun _ _ found => found, ?_⟩
  intro other built
  obtain ⟨providerType, config, found⟩ := isUnbuilt_iff.mp unbuilt
  have different : name ≠ other := by
    rintro rfl
    rw [unbuilt] at built
    cases built
  simp [Registry.setBuilt, found, Assoc.get?_insert, different]

/-- A fetch keeps its outcome where none was before. -/
theorem conclude {r : Reference} (lacking : w.resolver.lacks r.key = true) (o : Outcome) :
    w.Grows (Site.conclude r o w) := by
  refine ⟨rfl, ?_, fun _ _ => rfl⟩
  intro key o' found
  have different : r.key ≠ key := by
    rintro rfl
    rw [lacks_eq_true_iff.mp lacking] at found
    cases found
  rwa [Site.get?_conclude, if_neg different]

theorem surrender (w : World) (r : Reference) (here : Address) (stage : Stage) :
    w.Grows (Site.surrender r here stage w) := by
  cases stage <;> exact of_same rfl rfl rfl

end Grows

end World

section Moving

variable {here : Address} {r : Reference} {stage : Stage} {S C : Multiset Standing} {w w' : World}

theorem Site.Move.grows (balanced : Balanced (⟨here, r, stage⟩ ::ₘ C) w) {p : Progress}
    (move : Site.Move r here stage w p w') : w.Grows w' := by
  cases move with
  | stop interrupted => exact .surrender w r here stage
  | unknownType unbuilt => exact .setBuilt (isUnbuilt_iff.mpr ⟨_, _, unbuilt⟩) _
  | built due unbuilt => exact .setBuilt (isUnbuilt_iff.mpr ⟨_, _, unbuilt⟩) _
  | fetched due => exact .conclude (balanced.outcome_atWork rfl).1 _
  | arrived due =>
    have logged : w.Grows (w.log (.fetchEnded r.alias r.requestPath w.now)) := .of_same rfl rfl rfl
    exact logged.trans (World.Grows.conclude (w := w.log _) (balanced.outcome_atWork rfl).1 _)
  | timedOut early late => exact .conclude (balanced.outcome_atWork rfl).1 _
  | _ => exact .of_same rfl rfl rfl

/-- Worlds grow as long as the books balance. -/
theorem Task.grows_endures (w : World) :
    Task.Endures (fun S w' => Balanced S w' ∧ w.Grows w')
      (fun S w' => Balanced S w' ∧ w.Grows w') :=
  Task.Persists.endures
    { turn := fun _ _ f h => ⟨h.1.plan f, h.2.trans (.of_same rfl rfl rfl)⟩
      move := fun h move => ⟨h.1.move move, h.2.trans (move.grows h.1)⟩
      warn := fun _ _ _ h => ⟨h.1.log _, h.2.trans (.of_same rfl rfl rfl)⟩
      drop := fun _ here r stage w h => ⟨h.1.surrender, h.2.trans (.surrender w r here stage)⟩
      wait := fun S w moment h later due =>
        ⟨Task.balanced_endures.wait S w moment h.1 later due, h.2.trans (.of_same rfl rfl rfl)⟩
      strike := fun S w h struck =>
        ⟨Task.balanced_endures.strike S w h.1 struck, h.2.trans (.of_same rfl rfl rfl)⟩ }

theorem Task.Moves.grows {parallel : Bool} {t t' : Task}
    (moves : Task.Moves parallel here t w t' w')
    (balanced : Balanced (C + t.sites parallel here) w) : w.Grows w' :=
  (moves.keeps_all (Task.grows_endures w).toKeeps ⟨balanced, .refl w⟩).2

theorem Task.Runs.grows {parallel : Bool} {t t' : Task} (runs : Task.Runs parallel t w t' w')
    (balanced : Balanced (t.sites parallel []) w) : w.Grows w' :=
  (runs.keeps_all (Task.grows_endures w) ⟨balanced, .refl w⟩).2

end Moving

/-! ### What a world says -/

/-- What a world says about a reference: by the outcome under its key, or since it has no
provider. -/
inductive World.Tells (w : World) (r : Reference) : Except ResolveError Value → Prop where
  | outcome {o : Outcome} (cached : Assoc.get? w.resolver.cache r.key = some o) :
      Tells w r (Site.settle r o)
  | unbound (free : Assoc.get? w.registry.bindings r.alias = none) :
      Tells w r (.error (.notRegistered r))
  | refused {providerType : String} {config : Fields} {e : SetupError}
      (built : Assoc.get? w.registry.bindings r.alias
        = some (.declared providerType config (some (.error e)))) :
      Tells w r (.error (.unresolved r (.setup e)))

namespace World.Tells

variable {w w' : World} {r : Reference} {x : Except ResolveError Value}

theorem mono (grows : w.Grows w') (told : w.Tells r x) : w'.Tells r x := by
  cases told with
  | outcome cached => exact .outcome (grows.outcomes _ _ cached)
  | unbound free =>
    refine .unbound ((grows.bindings _ ?_).trans free)
    simp [Registry.isUnbuilt, free]
  | refused built =>
    refine .refused ((grows.bindings _ ?_).trans built)
    simp [Registry.isUnbuilt, built]

end World.Tells

/-- What a reference settles on is what the world says from then on, unless the run has been
interrupted. -/
theorem Site.Move.tells {r : Reference} {here : Address} {stage : Stage} {w w' : World}
    {result : Except ResolveError Value} (move : Site.Move r here stage w (.settled result) w') :
    w'.Tells r result ∨ ∃ i, w.interruption? = some i ∧ result = .error (.interrupted i) := by
  generalize came : Progress.settled result = p at move
  have kept : ∀ (o : Outcome) (w : World), (Site.conclude r o w).Tells r (Site.settle r o) := by
    intro o w
    refine .outcome ?_
    rw [Site.get?_conclude, if_pos rfl]
  cases move with
  | stop interrupted =>
    cases came
    exact .inr ⟨_, interrupted, rfl⟩
  | remember cached =>
    cases came
    exact .inl (.outcome cached)
  | unbound free =>
    cases came
    exact .inl (.unbound free)
  | refused built =>
    cases came
    exact .inl (.refused built)
  | fetched due =>
    cases came
    exact .inl (kept _ _)
  | arrived due =>
    cases came
    exact .inl (kept _ _)
  | timedOut early late =>
    cases came
    exact .inl (kept _ _)
  | _ => cases came

/-! ### What a task yields -/

namespace Task

/-- The values that a task may come to if its references may come to what `R` says. -/
inductive Yields (R : Reference → Except ResolveError Value → Prop) (lenient : Bool) :
    Task → Option Value → Prop where
  | leaf (v : Value) : Yields R lenient (.leaf v) (some v)
  | finished (v : Option Value) : Yields R lenient (.finished v) v
  | found {inSpread : Bool} {r : Reference} {stage : Stage} {v : Value} (answer : R r (.ok v)) :
      Yields R lenient (.site inSpread r stage) (some v)
  | givenUp {inSpread : Bool} {r : Reference} {stage : Stage} {e : ResolveError}
      (allowed : lenient = true) (answer : R r (.error e)) :
      Yields R lenient (.site inSpread r stage) (if inSpread then none else some .null)
  | secret {inner : Task} {v : Option Value} (inside : Yields R lenient inner v) :
      Yields R lenient (.secret inner) (v.map .secret)
  | join {shape : Shape} {parts : List Task} {vs : List (Option Value)} {u : Value}
      (all : List.Forall₂ (Yields R lenient) parts vs) (closes : shape.close vs = .ok u) :
      Yields R lenient (.join shape parts) (some u)

variable {R : Reference → Except ResolveError Value → Prop} {lenient : Bool} {parallel : Bool}

/-- Every reference of a task that yields a value comes to something. -/
theorem Yields.exists_answer {t : Task} {v : Option Value} (yields : t.Yields R lenient v)
    (here : Address) : ∀ s ∈ t.sites parallel here, ∃ x, R s.reference x := by
  induction t using induct generalizing v here with
  | leaf u => simp
  | finished u => simp
  | failed e => simp
  | site inSpread r stage =>
    simp only [sites_site, Multiset.mem_singleton, forall_eq]
    cases yields with
    | found answer => exact ⟨_, answer⟩
    | givenUp allowed answer => exact ⟨_, answer⟩
  | secret inner ih =>
    cases yields with
    | secret inside => simpa using ih inside here
  | join shape parts ih =>
    cases yields with
    | join all closes =>
      intro s hs
      rw [sites_join] at hs
      obtain ⟨i, t, found, within⟩ := part_of_mem_sitesOf hs
      obtain ⟨v, -, yields, -⟩ := forall₂_set all found
      exact ih t (List.mem_of_getElem? found) yields _ s within

theorem yields_of_inSecret {t : Task} {v : Option Value}
    (yields : (inSecret t).Yields R lenient v) :
    ∃ u, t.Yields R lenient u ∧ v = u.map .secret := by
  cases t with
  | finished u =>
    cases yields
    exact ⟨u, .finished u, rfl⟩
  | failed e => cases yields
  | _ =>
    cases yields with
    | secret inside => exact ⟨_, inside, rfl⟩

theorem forall₂_finished (vs : List (Option Value)) :
    List.Forall₂ (Yields R lenient) (vs.map .finished) vs := by
  induction vs with
  | nil => exact .nil
  | cons v vs ih => exact .cons (.finished v) ih

/-- Drawing parts together brings about nothing new. -/
theorem yields_of_ofPolled {shape : Shape} {parts : List Task} {v : Option Value}
    (yields : (ofPolled shape parts).Yields R lenient v) :
    (Task.join shape parts).Yields R lenient v := by
  cases h : values? parts with
  | none => rwa [ofPolled_of_unfinished h] at yields
  | some vs =>
    rw [ofPolled, h] at yields
    cases closed : shape.close vs with
    | error e =>
      simp only [closed] at yields
      cases yields
    | ok u =>
      simp only [closed] at yields
      cases yields
      rw [values?_eq_some_iff.mp h]
      exact .join (forall₂_finished vs) closed

theorem forall₂_of_set {parts : List Task} {i : Nat} {t t' : Task} {vs : List (Option Value)}
    (found : parts[i]? = some t)
    (all : List.Forall₂ (Yields R lenient) (parts.set i t') vs)
    (back : ∀ v, t'.Yields R lenient v → t.Yields R lenient v) :
    List.Forall₂ (Yields R lenient) parts vs := by
  obtain ⟨bound, there⟩ := List.getElem?_eq_some_iff.mp found
  obtain ⟨v, -, yields, replace⟩ := forall₂_set all (List.getElem?_set_self bound)
  have before := replace t (back v yields)
  rwa [List.set_set, ← there, List.set_getElem_self bound] at before

variable {here : Address} {t t' : Task} {w w' last : World} {C : Multiset Standing}

theorem grows_ofProgress (inSpread : Bool) (r : Reference) (p : Progress) (w : World) :
    w.Grows (ofProgress inSpread r p w).2 := by
  unfold ofProgress
  split
  · exact .refl w
  · exact .refl w
  · split
    · exact .of_same rfl rfl rfl
    · exact .refl w

/-- What a reference has come to is among what it may come to. -/
theorem yields_of_ofProgress {r : Reference} {p : Progress} {inSpread : Bool} {stage : Stage}
    {v : Option Value} (move : Site.Move r here stage w p w') (later : w'.Grows last)
    (yields :
      (ofProgress inSpread r p w').1.Yields last.Tells last.resolver.policy.allowMissing v) :
    (Task.site inSpread r stage).Yields last.Tells last.resolver.policy.allowMissing v := by
  cases p with
  | waiting stage' =>
    cases yields with
    | found answer => exact .found answer
    | givenUp allowed answer => exact .givenUp allowed answer
  | settled result =>
    cases result with
    | ok u =>
      cases yields
      rcases move.tells with told | ⟨i, -, interrupted⟩
      · exact .found (told.mono later)
      · cases interrupted
    | error e =>
      simp only [ofProgress] at yields
      split at yields
      · rename_i allowed
        simp only [Bool.and_eq_true, Bool.not_eq_true'] at allowed
        cases yields
        rcases move.tells with told | ⟨i, -, interrupted⟩
        · exact .givenUp (later.policy ▸ allowed.1) (told.mono later)
        · cases interrupted
          cases allowed.2
      · cases yields

/-- What a task yields in the end, it has yielded all along. -/
theorem Moves.yields (moves : Moves parallel here t w t' w')
    (balanced : Balanced (C + t.sites parallel here) w) (later : w'.Grows last) {v : Option Value}
    (yields : t'.Yields last.Tells last.resolver.policy.allowMissing v) :
    t.Yields last.Tells last.resolver.policy.allowMissing v := by
  induction moves generalizing C v with
  | rest => exact yields
  | turn => exact yields
  | trans first next ih ih' =>
    have middle := first.keeps_all balanced_keeps balanced
    exact ih balanced ((next.grows middle).trans later) (ih' middle later yields)
  | leaf live =>
    cases yields
    exact .leaf _
  | stop interrupted => cases yields
  | @site here inSpread r stage w w' p move =>
    exact yields_of_ofProgress move ((grows_ofProgress inSpread r p w').trans later) yields
  | secret moves tidy ih =>
    obtain ⟨u, inside, rfl⟩ := yields_of_inSecret yields
    rw [sites_secret] at balanced
    exact .secret (ih balanced later inside)
  | @part here shape parts i t t' w w' found calm turn isOpen moves tidy ih =>
    obtain ⟨F, census, -⟩ := sites_join_set found here
    rw [census] at balanced
    cases yields with
    | join all closes => exact .join (forall₂_of_set found all fun v => ih balanced later) closes
  | close calm => exact yields_of_ofPolled yields
  | fail found => cases yields

/-- A run that ends with a value ends with one that its task yields by what the last world
says. -/
theorem Runs.yields (runs : Runs parallel t w t' w') (balanced : Balanced (t.sites parallel []) w)
    (later : w'.Grows last) {v : Option Value}
    (yields : t'.Yields last.Tells last.resolver.policy.allowMissing v) :
    t.Yields last.Tells last.resolver.policy.allowMissing v := by
  induction runs generalizing v with
  | trans first next ih ih' =>
    have middle := first.keeps_all balanced_endures balanced
    exact ih balanced ((next.grows middle).trans later) (ih' middle later yields)
  | moves moves => exact moves.yields (C := 0) (by simpa using balanced) later yields
  | _ => exact yields

end Task

theorem World.runTask_grows {w : World} {t : Task} (fit : t.Fit w.resolver.policy.isParallel w) :
    w.Grows (w.runTask t).2 := by
  obtain ⟨t', w', x, ran, -, runs⟩ := runTask_ends fit
  rw [ran]
  exact (runs.grows fit.balanced).trans (.of_same rfl rfl rfl)

end LayeredConfig
