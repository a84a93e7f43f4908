import LayeredConfig.Proofs.Resolution.Ledger

/-!
# One reference after another, in the order of the value

Where parts of a value are not resolved side by side, a run is a walk through the value. Every
move makes the next call that the script of the walk asks for, or settles a reference all of whose
calls have been made (`Task.Moves.continues`). So what a run does and what it comes to is settled
by the value and the data behind its references, whatever calls take (`World.resolve_sequential`).
-/

namespace LayeredConfig

/-! ### Moves and walks -/

/-- What was to be done on a walk, and what it comes to, is what is left to be done on another
one, and what that comes to. -/
structure Continues {α : Type} (g : Registry) (answers : Answers) (lenient : Bool)
    (done : List Act) (x : Walk α) (done' : List Act) (x' : Walk α) : Prop where
  script : script g answers lenient done' x'.met = script g answers lenient done x.met
  result : x'.result = x.result

namespace Continues

variable {α β : Type} {g : Registry} {answers : Answers} {lenient : Bool}
  {done done' done'' : List Act} {x x' x'' : Walk α}

theorem refl (done : List Act) (x : Walk α) : Continues g answers lenient done x done x :=
  ⟨rfl, rfl⟩

theorem trans (first : Continues g answers lenient done x done' x')
    (next : Continues g answers lenient done' x' done'' x'') :
    Continues g answers lenient done x done'' x'' :=
  ⟨next.script.trans first.script, next.result.trans first.result⟩

/-- Walks go on alike from what they have come to. -/
theorem bind (continues : Continues g answers lenient done x done' x') (f : α → Walk β) :
    Continues g answers lenient done (x >>= f) done' (x' >>= f) := by
  obtain ⟨same, result⟩ := continues
  cases h : x.result with
  | error e =>
    rw [Walk.bind_of_error h, Walk.bind_of_error (result.trans h)]
    exact ⟨same, rfl⟩
  | ok a =>
    rw [Walk.bind_of_ok h, Walk.bind_of_ok (result.trans h)]
    exact ⟨by rw [script_append, script_append, same], rfl⟩

theorem map (continues : Continues g answers lenient done x done' x') (f : α → β) :
    Continues g answers lenient done (f <$> x) done' (f <$> x') := by
  rw [← bind_pure_comp, ← bind_pure_comp]
  exact continues.bind _

/-- Who is over has done what was to be done in the beginning, and has come to what the walk
comes to. -/
theorem settled {v : Value} {t : Task} {x : Except ResolveError Value}
    (continues : Continues g answers lenient done ((Task.ofValue v).walk answers lenient) done'
      (t.walk answers lenient))
    (result : t.result? = some x) :
    done' = LayeredConfig.script g answers lenient done (v.walk answers lenient).met ∧
      (v.walk answers lenient).result = x := by
  obtain ⟨script, same⟩ := continues
  obtain ⟨nothing, ends⟩ := @Task.walk_of_result answers lenient _ _ result
  rw [(Task.walk_ofValue_and_ofSpread v).1, Walk.map_eq] at script same
  rw [nothing] at script
  rw [same] at ends
  refine ⟨script, ?_⟩
  rw [← ends]
  cases (v.walk answers lenient).result <;> rfl

end Continues

section Settling

variable {w₀ w w' : World} {U : Reference → Prop} {answers : Answers} {C : Multiset Standing}
  {here : Address} {r : Reference} {stage : Stage}

/-- A reference with a provider can be fetched for. -/
theorem provides_of_provider
    (follows : w₀.registry.Follows w₀.resolver.policy.fetchTimeout answers)
    (ledger : Ledger w₀ U (⟨here, r, stage⟩ ::ₘ C) w) {p : Provider}
    (holds : stage.provider? = some p) :
    answers.provides r.alias = true ∧ w.registry.isUnbuilt r.alias = false := by
  obtain ⟨_, fetches⟩ := ledger.fetches
  have provides := fetches.provided _ (Multiset.mem_cons_self _ _) p holds
  obtain ⟨_, known, data, rfl, -⟩ :=
    follows.admits _ _ (ledger.rooted.registry.mayAnswer provides.mayAnswer)
  exact ⟨by rw [Answers.provides, known], provides.isUnbuilt⟩

/-- A reference that goes on makes the next call for it, if it makes any. -/
theorem Site.Move.perform_eq
    (follows : w₀.registry.Follows w₀.resolver.policy.fetchTimeout answers) (lenient : Bool)
    (ledger : Ledger w₀ U (⟨here, r, stage⟩ ::ₘ C) w) (live : w.interruption? = none)
    {stage' : Stage} (move : Site.Move r here stage w (.waiting stage') w') :
    r.perform w₀.registry answers lenient (w₀.actsSince w')
      = r.perform w₀.registry answers lenient (w₀.actsSince w) := by
  have later := ledger.rooted.registry
  have made : ∀ {e : Event}, w'.trace = e :: w.trace →
      w₀.actsSince w' = w₀.actsSince w ++ e.act?.toList := World.actsSince_cons ledger.since
  have same : w'.trace = w.trace → w₀.actsSince w' = w₀.actsSince w := World.actsSince_of_same
  have launched : ∀ {p : Provider}, stage.provider? = some p →
      w.resolver.lacks r.key = true → w.resolver.lines.isFirst r.key here →
      stage.isFetching = false →
      w'.trace = .fetchStarted r.alias r.requestPath w.now :: w.trace →
      r.perform w₀.registry answers lenient (w₀.actsSince w')
        = r.perform w₀.registry answers lenient (w₀.actsSince w) := by
    intro p holds lacking first idle trace
    obtain ⟨provides, built⟩ := provides_of_provider follows ledger holds
    rw [made trace]
    exact Reference.perform_fetch provides (ledger.init_mem built)
      (ledger.fetch_not_mem live lacking first idle)
  generalize came : Progress.waiting stage' = p at move
  cases move with
  | stop => cases came
  | build unbuilt first _ known =>
    have toDo : w₀.registry.initialises r.alias = true := by
      rw [later.types] at known
      simp [Registry.initialises, later.unbuilt unbuilt, Assoc.contains, known]
    rw [made rfl]
    exact Reference.perform_init toDo (ledger.init_not_mem live unbuilt first)
  | launch first uncached => exact launched rfl (lacks_eq_true_iff.mpr uncached) first rfl rfl
  | launchQueued =>
    have atWork := ledger.balanced.outcome_atWork rfl
    exact launched rfl atWork.1 atWork.2 rfl rfl
  | arrived => cases came
  | _ => rw [same rfl]

/-- When a reference settles, all calls for it have been made. -/
theorem Site.Move.perform_of_settled
    (follows : w₀.registry.Follows w₀.resolver.policy.fetchTimeout answers) (lenient : Bool)
    (plain : ∀ r, U r → r.IsPlain) (ledger : Ledger w₀ U (⟨here, r, stage⟩ ::ₘ C) w)
    (live : w.interruption? = none) {result : Except ResolveError Value}
    (move : Site.Move r here stage w (.settled result) w') :
    r.perform w₀.registry answers lenient (w₀.actsSince w)
      = w₀.actsSince w' ++ r.warnings answers lenient := by
  have later := ledger.rooted.registry
  have used : U r := ledger.rooted.references _ (Multiset.mem_cons_self _ _)
  have fetched : .fetch r.alias r.requestPath ∈ w₀.actsSince w →
      r.perform w₀.registry answers lenient (w₀.actsSince w)
        = w₀.actsSince w ++ r.warnings answers lenient := fun asked =>
    Reference.perform_of_made (ledger.init_mem (ledger.built_of_fetch_mem asked)) fun _ => asked
  have made : ∀ {e : Event}, w'.trace = e :: w.trace →
      w₀.actsSince w' = w₀.actsSince w ++ e.act?.toList := World.actsSince_cons ledger.since
  have same : w'.trace = w.trace → w₀.actsSince w' = w₀.actsSince w := World.actsSince_of_same
  generalize came : Progress.settled result = p at move
  cases move with
  | stop interrupted => cases live.symm.trans interrupted
  | remember cached => exact fetched (ledger.fetch_mem_of_cached plain used cached)
  | unbound free =>
    have free' := later.get?_eq_none_iff.mp free
    refine Reference.perform_of_made (fun toDo => ?_) fun provides => ?_
    · simp [Registry.initialises, free'] at toDo
    · simp [Answers.provides, follows.unbound _ free'] at provides
  | refused built =>
    refine Reference.perform_of_made (ledger.init_mem (by simp [Registry.isUnbuilt, built]))
      fun provides => ?_
    simp [Answers.provides, follows.refused (later.mayAnswer (.built built))] at provides
  | fetched | timedOut =>
    rw [same rfl]
    exact fetched (ledger.fetch_mem_of_fetching rfl)
  | arrived =>
    rw [made rfl]
    exact (fetched (ledger.fetch_mem_of_fetching rfl)).trans (by simp [Event.act?])
  | _ => cases came

/-- A reference that moves goes on with its own walk. -/
theorem Site.Move.continues
    (follows : w₀.registry.Follows w₀.resolver.policy.fetchTimeout answers)
    (plain : ∀ r, U r → r.IsPlain) (ledger : Ledger w₀ U (⟨here, r, stage⟩ ::ₘ C) w)
    (live : w.interruption? = none) {p : Progress} (move : Site.Move r here stage w p w')
    (inSpread : Bool) :
    Continues w₀.registry answers w₀.resolver.policy.allowMissing (w₀.actsSince w)
      ((Task.site inSpread r stage).walk answers w₀.resolver.policy.allowMissing)
      (w₀.actsSince (Task.ofProgress inSpread r p w').2)
      ((Task.ofProgress inSpread r p w').1.walk answers w₀.resolver.policy.allowMissing) := by
  have policy : w'.resolver.policy = w₀.resolver.policy :=
    move.policy.trans ledger.rooted.policy
  rw [Task.walk_site]
  cases p with
  | waiting stage' =>
    rw [Task.ofProgress, Task.walk_site]
    exact ⟨move.perform_eq follows _ ledger live, rfl⟩
  | settled result =>
    have found : answers.lookup r = result := by
      rcases move.settles follows plain ledger.rooted with found | ⟨i, interrupted, -⟩
      · exact found.symm
      · cases live.symm.trans interrupted
    have done := move.perform_of_settled follows w₀.resolver.policy.allowMissing plain ledger live
    rw [Reference.warnings, found] at done
    rw [found]
    cases result with
    | ok v =>
      rw [Task.ofProgress, Task.walk]
      exact ⟨(done.trans (List.append_nil _)).symm, rfl⟩
    | error e =>
      have other := Answers.not_isInterruption found
      cases lenient : w₀.resolver.policy.allowMissing with
      | false =>
        rw [lenient] at done
        simp only [Task.ofProgress, policy, lenient, Bool.false_and, Bool.false_eq_true, if_false,
          Task.walk]
        exact ⟨(done.trans (List.append_nil _)).symm, rfl⟩
      | true =>
        rw [lenient] at done
        simp only [Task.ofProgress, policy, lenient, other, Bool.not_false, Bool.and_self,
          if_true, Task.walk]
        refine ⟨?_, rfl⟩
        obtain ⟨events, since⟩ := ledger.since
        obtain ⟨events', trace, -⟩ := move.adds
        have since' : w'.trace = (events' ++ events) ++ w₀.trace := by
          rw [trace, since, List.append_assoc]
        have warned := World.actsSince_cons ⟨_, since'⟩ (w'.log_trace (.downgraded e w'.now))
        exact warned.trans done.symm

end Settling

namespace Task

section Moving

variable {w₀ w w' : World} {U : Reference → Prop} {answers : Answers} {C : Multiset Standing}
  {here : Address} {t t' : Task}

/-- Moves in order go on with the walk of the task, or the run has been interrupted. -/
theorem Moves.continues
    (follows : w₀.registry.Follows w₀.resolver.policy.fetchTimeout answers)
    (plain : ∀ r, U r → r.IsPlain) (moves : Moves false here t w t' w') (inOrder : t.InOrder)
    (fresh : ∀ s ∈ C, s.stage = .fresh) (ledger : Ledger w₀ U (C + t.sites false here) w) :
    w'.interruption?.isSome = true ∨
      Continues w₀.registry answers w₀.resolver.policy.allowMissing
        (w₀.actsSince w) (t.walk answers w₀.resolver.policy.allowMissing)
        (w₀.actsSince w') (t'.walk answers w₀.resolver.policy.allowMissing) := by
  induction moves generalizing C with
  | rest => exact .inr (.refl _ _)
  | turn => exact .inr (.refl _ _)
  | trans first next ih ih' =>
    have middle := first.keeps_inOrder (Ledger.endures w₀ U) inOrder fresh ledger
    rcases ih inOrder fresh ledger with interrupted | continues
    · exact .inl (next.sameMoment.interruption interrupted)
    · exact (ih' (first.inOrder inOrder) fresh middle).imp_right continues.trans
  | leaf => exact .inr (.refl _ _)
  | stop interrupted => exact .inl (by simp [interrupted])
  | @site here inSpread r stage w w' p move =>
    rw [sites_site, add_comm, Multiset.singleton_add] at ledger
    cases live : w.interruption? with
    | some i =>
      have moved : Moves false here (.site inSpread r stage) w _ _ := .site move
      exact .inl (moved.sameMoment.interruption (by simp [live]))
    | none => exact .inr (move.continues follows plain ledger live inSpread)
  | @secret here inner inner' w w' moves tidy ih =>
    cases inOrder with
    | secret inside =>
      rw [sites_secret] at ledger
      refine (ih inside fresh ledger).imp_right fun continues => ?_
      rw [walk_inSecret, walk, bind_pure_comp]
      exact continues.map _
  | @part here shape parts i t t' w w' found calm turn isOpen moves tidy ih =>
    obtain ⟨F, others, census, -⟩ := inOrder.sites_part found turn isOpen here
    obtain ⟨vs, rest, whole, -, set⟩ := inOrder.split found turn isOpen
    obtain ⟨f, walks⟩ := exists_walk_join shape vs rest
    rw [census] at ledger
    rw [set, walks, whole, walks]
    cases inOrder with
    | join each behind =>
      exact (ih (each t (List.mem_of_getElem? found))
        (fun s hs => (Multiset.mem_add.mp hs).elim (fresh s) (others s)) ledger).imp_right
        fun continues => continues.bind f
  | close =>
    rw [walk_ofPolled]
    exact .inr (.refl _ _)
  | @fail here shape parts w e found =>
    -- Nothing has been met on the way to the error.
    obtain ⟨vs, rest, rfl, -⟩ := inOrder.split_of_surfaced found
    obtain ⟨f, walks⟩ := exists_walk_join shape vs rest
    rw [walks, walk, Walk.bind_of_error rfl, World.actsSince_of_same (release_trace _ _ _)]
    exact .inr (.refl _ _)

/-- A run goes on with the walk of the task until it is interrupted. -/
theorem Runs.continues
    (follows : w₀.registry.Follows w₀.resolver.policy.fetchTimeout answers)
    (plain : ∀ r, U r → r.IsPlain) (runs : Runs false t w t' w') (inOrder : t.InOrder)
    (ledger : Ledger w₀ U (t.sites false []) w) :
    w'.interruption?.isSome = true ∨
      Continues w₀.registry answers w₀.resolver.policy.allowMissing
        (w₀.actsSince w) (t.walk answers w₀.resolver.policy.allowMissing)
        (w₀.actsSince w') (t'.walk answers w₀.resolver.policy.allowMissing) := by
  induction runs with
  | rest => exact .inr (.refl _ _)
  | wait => exact .inr (.refl _ _)
  | strike => exact .inr (.refl _ _)
  | trans first next ih ih' =>
    have middle := first.keeps_inOrder (Ledger.endures w₀ U) inOrder ledger
    rcases ih inOrder ledger with interrupted | continues
    · exact .inl (next.interruption interrupted)
    · exact (ih' (first.inOrder inOrder) middle).imp_right continues.trans
  | moves moves =>
    exact moves.continues (C := 0) follows plain inOrder (by simp) (by rwa [zero_add])

end Moving

end Task

/-! ### The run of a value -/

namespace World

/-- Where parts of a value are not resolved side by side, a run is the walk through the value, if
nothing interrupts it. It comes to what the walk comes to, and what it does is what is to be done
about the references that the walk meets, in that order. The walk meets the references of the
value as they are written, up to the first whose failure counts or a map that cannot be composed.
No call starts before every other is over. Each fetch is made once, when the first reference is
met that asks for it, if it has a provider; each provider that has to be is initialised once,
right before the first fetch from it; and a warning is sent for each reference that is met and has
no data, where that is allowed. -/
theorem resolve_sequential (w : World) (v : Value) (answers : Answers) (idle : w.IsIdle)
    (fresh : w.resolver.cache = []) (sequential : w.resolver.policy.maxConcurrent ≤ 1)
    (follows : w.registry.Follows w.resolver.policy.fetchTimeout answers)
    (plain : ∀ r ∈ v.references, r.IsPlain)
    (uninterrupted : (w.resolve v).2.interruption? = none) :
    ∃ met x events w',
      v.walk answers w.resolver.policy.allowMissing = { met, result := x } ∧
      (v.walk answers w.resolver.policy.allowMissing).Follows answers
        w.resolver.policy.allowMissing v.references ∧
      w.resolve v = (some x, w') ∧ w'.trace = events ++ w.trace ∧ w.IsSerial w' events ∧
      Trace.acts events = script w.registry answers w.resolver.policy.allowMissing [] met ∧
      (∀ front name back, Trace.acts events = front ++ .init name :: back →
        (∀ path, .fetch name path ∉ front) ∧
        (answers.provides name = true → ∃ path rest, back = .fetch name path :: rest)) ∧
      events.reverse.filterMap Event.fetched?
        = ((met.filter fun r => answers.provides r.alias).map Reference.request).eraseDups ∧
      events.reverse.filterMap Event.startedAlias?
        = ((met.filter fun r => w.registry.initialises r.alias).map Reference.alias).eraseDups ∧
      Trace.warnings events
        = if w.resolver.policy.allowMissing then Reference.dueWarnings answers.lookup met
          else [] := by
  have unstarted := Task.Unstarted.ofValue v
  have alone : w.resolver.policy.isParallel = false := by
    simpa [Policy.isParallel] using sequential
  obtain ⟨t', w', x, ran, result, runs⟩ := runTask_ends (idle.fit _ unstarted)
  have live : w'.interruption? = none := by
    rw [resolve, ran] at uninterrupted
    exact uninterrupted
  have calm : ¬w'.interruption?.isSome = true := by simp [live]
  rw [alone] at runs
  have before := Ledger.start idle fresh v
  have after := runs.keeps_inOrder (Ledger.endures w _) unstarted.inOrder before
  have continues := (runs.continues follows plain unstarted.inOrder before).resolve_left calm
  rw [Task.sites_of_isOver (Task.isOver_of_result result)] at after
  obtain ⟨events, spaced⟩ := after.spaced.resolve_left calm
  obtain ⟨acts, rfl⟩ := continues.settled result
  rw [actsSince_eq spaced.trace, actsSince_self] at acts
  refine ⟨_, _, events, _, rfl, v.walk_follows, ran, spaced.trace, ?_, acts, ?_, ?_, ?_, ?_⟩
  · have done : Spaced w events 0 { w' with agenda := {} } :=
      spaced.onward rfl (.of_same rfl rfl rfl) fun m hm => ⟨m, le_rfl, hm⟩
    exact done.isSerial
  · intro front name back here
    exact fetch_next_to_init (acts.symm.trans here)
  · rw [Trace.fetched_eq, acts, fetched_script]
  · rw [Trace.startedAlias_eq, acts, initialised_script]
  · rw [Trace.warnings_eq, acts, warnings_script]
    rfl

/-- One alias whose provider has yet to be initialised, and one permit. -/
def oneByOne : World where
  registry := {
    types := [("echo", { init := fun _ _ _ => { delay := 3, outcome := .ok (.echo 5) } })]
    bindings := [("app", .declared "echo" [] none)] }
  resolver := { policy := { allowMissing := true, maxConcurrent := 1 } }

theorem oneByOne_follows :
    oneByOne.registry.Follows none
      (Function.update (fun _ => none) "app"
        (some (.ok fun path => .ok (.string (Text.dotted path))))) := by
  have only : ∀ {name b}, Assoc.get? oneByOne.registry.bindings name = some b →
      name = "app" ∧ b = .declared "echo" [] none := by
    intro name b bound
    simp only [oneByOne, Assoc.get?_cons, Assoc.get?_nil] at bound
    split at bound
    · rename_i same
      exact ⟨same.symm, (Option.some.inj bound).symm⟩
    · cases bound
  constructor
  · intro name free
    refine Function.update_of_ne (fun same => ?_) ..
    subst same
    cases free
  · intro name result answer
    cases answer with
    | installed bound => cases (only bound).2
    | built bound => cases (only bound).2
    | unknownType bound unknown =>
      obtain ⟨-, same⟩ := only bound
      cases same
      cases unknown
    | init bound known trace =>
      obtain ⟨rfl, same⟩ := only bound
      cases same
      cases known
      exact ⟨_, Function.update_self .., _, rfl, fun _ _ => rfl⟩

/-- References of which one comes twice, and one has no provider. -/
def tour : Value :=
  .list [.reference { «alias» := "app", path := ["host"] },
    .reference { «alias» := "lost", path := ["host"] },
    .secret (.reference { «alias» := "app", path := ["host"] }),
    .reference { «alias» := "app", path := ["port"] }]

theorem resolve_sequential_tour :
    ∃ events w', oneByOne.resolve tour
        = (some (.ok (.list [.string "host", .null, .secret (.string "host"), .string "port"])),
          w') ∧
      w'.trace = events ∧ oneByOne.IsSerial w' events ∧
      Trace.acts events = [.init "app", .fetch "app" ["host"],
        .giveUp (.notRegistered { «alias» := "lost", path := ["host"] }),
        .fetch "app" ["port"]] := by
  obtain ⟨met, x, events, w', walk, -, ran, trace, serial, acts, -⟩ :=
    resolve_sequential oneByOne tour _ ⟨rfl, rfl, rfl, rfl⟩ rfl (by decide) oneByOne_follows
      (by decide) (by decide)
  cases walk
  exact ⟨events, w', ran, trace.trans (List.append_nil _), serial, acts⟩

end World

end LayeredConfig
