import LayeredConfig.Proofs.Resolution.Growth
import LayeredConfig.Proofs.Resolution.Substitution

/-!
What is given up, and what is not.

Where missing data is allowed, a reference without data is given up with a warning. No
interruption ever counts as missing data: what is given up has no data
(`Task.Runs.warns`), and in a run that comes to a value every reference without data
has been given up, each as often as it occurs. So a run that may be interrupted is all or
nothing: it fails, or comes to the same as a run that nothing interrupts, with the same
warnings (`World.resolve_all_or_nothing`).
-/

namespace LayeredConfig

/-! ### What is given up -/

/-- The error of a reference that is given up, if the event is that. -/
def Event.downgraded? : Event → Option ResolveError
  | .downgraded e _ => some e
  | _ => none

/-- Events that give something up are warnings. -/
theorem Event.warning?_eq (e : Event) :
    e.warning? = e.downgraded?.map fun e => e.message ++ "; using null" := by
  cases e <;> rfl

/-- Whether an event gives up nothing but references in `U` that have no data. -/
def Answers.Excuses (answers : Answers) (U : Reference → Prop) (e : Event) : Prop :=
  ∀ error ∈ e.downgraded?, ∃ r, U r ∧ answers.lookup r = .error error

/-- Why some references have no data. -/
def Answers.failures (answers : Answers) (rs : Multiset Reference) : Multiset ResolveError :=
  rs.filterMap fun r =>
    match answers.lookup r with
    | .ok _ => none
    | .error e => some e

/-- All that has been given up. -/
def World.downgrades (w : World) : Multiset ResolveError :=
  ↑(w.trace.filterMap Event.downgraded?)

namespace Answers

variable {answers : Answers} {rs rs' : Multiset Reference} {r : Reference}

@[simp] theorem failures_zero : answers.failures 0 = 0 := rfl

theorem failures_add : answers.failures (rs + rs') = answers.failures rs + answers.failures rs' :=
  Multiset.filterMap_add ..

theorem failures_of_ok {v : Value} (found : answers.lookup r = .ok v) :
    answers.failures {r} = 0 := by
  simp [failures, ← Multiset.cons_zero, found]

theorem failures_of_error {e : ResolveError} (failed : answers.lookup r = .error e) :
    answers.failures {r} = {e} := by
  simp [failures, ← Multiset.cons_zero, failed]

end Answers

namespace World

variable {w w' : World}

theorem downgrades_of_adds (adds : w.Adds (fun e => e.downgraded? = none) w') :
    w'.downgrades = w.downgrades := by
  obtain ⟨events, trace, none⟩ := adds
  rw [downgrades, downgrades, trace, List.filterMap_append,
    List.filterMap_eq_nil_iff.mpr none, List.nil_append]

theorem downgrades_log (w : World) (e : ResolveError) (time : Nat) :
    (w.log (.downgraded e time)).downgrades = e ::ₘ w.downgrades := by
  simp [downgrades, Event.downgraded?]

/-- The texts of the warnings are those of what has been given up. -/
theorem warnings_eq (w : World) :
    (↑w.trace.warnings : Multiset String)
      = w.downgrades.map fun e => e.message ++ "; using null" := by
  rw [Trace.warnings, downgrades, Multiset.map_coe, List.map_filterMap, ← funext Event.warning?_eq]
  exact Multiset.coe_eq_coe.mpr ((List.reverse_perm _).filterMap _)

end World

/-- A reference that moves gives nothing up by itself. -/
theorem Site.Move.adds {r : Reference} {here : Address} {stage : Stage} {w w' : World}
    {p : Progress} (move : Site.Move r here stage w p w') :
    w.Adds (fun e => e.downgraded? = none) w' := by
  have start := World.Adds.refl w fun e => e.downgraded? = none
  rcases move.trace_cases with silent | ⟨_, _, started⟩ | ⟨_, _, started⟩ | ended
  · exact start.onward silent
  · exact start.extend started rfl
  · exact start.extend started rfl
  · exact start.extend ended rfl

/-! ### What is said in the end -/

/-- What a world says of the references in `U` is what their data says. -/
def World.AgreesWith (w : World) (answers : Answers) (U : Reference → Prop) : Prop :=
  ∀ r, U r → ∀ x, w.Tells r x → x = answers.lookup r

theorem Rooted.agreesWith {g : Registry} {rules : Policy} {U : Reference → Prop}
    {S : Multiset Standing} {w : World} {answers : Answers} (rooted : Rooted g rules U S w)
    (follows : g.Follows rules.fetchTimeout answers) (plain : ∀ r, U r → r.IsPlain) :
    w.AgreesWith answers U := by
  intro r used x told
  cases told with
  | outcome cached => exact rooted.settle_eq_lookup follows plain used cached
  | unbound free =>
    rw [Answers.lookup, follows.unbound _ (rooted.registry.get?_eq_none_iff.mp free)]
  | refused built =>
    rw [Answers.lookup, follows.refused (rooted.registry.mayAnswer (.built built))]

/-- The books balance, and nobody stands anywhere but references in `U`. -/
structure Serves (U : Reference → Prop) (S : Multiset Standing) (w : World) : Prop where
  balanced : Balanced S w
  references : ∀ s ∈ S, U s.reference

theorem Serves.endures (U : Reference → Prop) : Task.Endures (Serves U) (Serves U) := by
  have books := Task.balanced_endures
  exact Task.Persists.endures
    { turn := fun S w f h => ⟨h.balanced.plan f, h.references⟩
      move := fun {C here r stage w p w'} h move => by
        refine ⟨h.balanced.move move, ?_⟩
        have all := Multiset.forall_mem_cons.mp h.references
        cases p with
        | waiting stage' => exact Multiset.forall_mem_cons.mpr all
        | settled result => exact all.2
      warn := fun S w e h => ⟨h.balanced.log _, h.references⟩
      drop := fun C here r stage w h =>
        ⟨h.balanced.surrender, (Multiset.forall_mem_cons.mp h.references).2⟩
      wait := fun S w moment h later due =>
        ⟨books.wait S w moment h.balanced later due, h.references⟩
      strike := fun S w h struck => ⟨books.strike S w h.balanced struck, h.references⟩ }

/-! ### What runs give up -/

namespace Task

/-- Dropping a task is not seen. -/
theorem release_trace (parallel : Bool) (here : Address) (t : Task) {w : World} :
    (t.release parallel here w).trace = w.trace :=
  release_drops (J := fun _ w' => w'.trace = w.trace) (fun _ _ _ h => h)
    (fun _ here r stage w' h => (Site.surrender_trace r here stage w').trans h) t here 0 w rfl

/-- The references in a task at an address that have not settled yet. -/
def pending (parallel : Bool) (here : Address) (t : Task) : Multiset Reference :=
  (t.sites parallel here).map Standing.reference

section Pending

variable {parallel : Bool} {here : Address}

@[simp] theorem pending_leaf (v : Value) : (leaf v).pending parallel here = 0 := by
  simp [pending]

@[simp] theorem pending_finished (v : Option Value) :
    (finished v).pending parallel here = 0 := by
  simp [pending]

@[simp] theorem pending_site (inSpread : Bool) (r : Reference) (stage : Stage) :
    (site inSpread r stage).pending parallel here = {r} := by
  simp [pending]

/-- The references of a value are pending when its task begins. -/
theorem pending_ofValue (v : Value) : (ofValue v).pending parallel here = ↑v.references :=
  (references_ofValue_and_ofSpread v here).1

end Pending

/-- What has been given up between two states of a task: nothing but references in `U` that
have no data, and if nothing has failed, each that has settled without data, as often as it
occurs. -/
structure Warns (answers : Answers) (U : Reference → Prop) (parallel : Bool) (here : Address)
    (t : Task) (w : World) (t' : Task) (w' : World) : Prop where
  excused : w.Adds (answers.Excuses U) w'
  complete : t'.Sound → w'.downgrades + answers.failures (t'.pending parallel here)
    = w.downgrades + answers.failures (t.pending parallel here)

namespace Warns

variable {answers : Answers} {U : Reference → Prop} {parallel : Bool} {here : Address}
  {t t' t'' : Task} {w w' w'' : World}

/-- Nothing is given up, and the same references have yet to settle. -/
theorem of_same (trace : w'.trace = w.trace)
    (pending : t'.pending parallel here = t.pending parallel here) :
    Warns answers U parallel here t w t' w' := by
  refine ⟨(World.Adds.refl w _).onward trace, fun _ => ?_⟩
  rw [pending, World.downgrades, trace, World.downgrades]

/-- Once something has failed, it is only asked that nothing with data was given up. -/
theorem of_failed {e : ResolveError} (excused : w.Adds (answers.Excuses U) w') :
    Warns answers U parallel here t w (.failed e) w' :=
  ⟨excused, fun sound => by cases sound⟩

theorem trans (first : Warns answers U parallel here t w t' w')
    (next : Warns answers U parallel here t' w' t'' w'') (back : t''.Sound → t'.Sound) :
    Warns answers U parallel here t w t'' w'' :=
  ⟨first.excused.trans next.excused,
    fun sound => (next.complete sound).trans (first.complete (back sound))⟩

end Warns

section Moving

variable {U : Reference → Prop} {answers : Answers} {C : Multiset Standing} {parallel : Bool}
  {here : Address} {w w' last : World}

/-- A reference that is given up has no data. -/
theorem warns_ofProgress (agrees : last.AgreesWith answers U) {r : Reference} {stage : Stage}
    {p : Progress} (used : U r) (move : Site.Move r here stage w p w') (later : w'.Grows last)
    (inSpread : Bool) :
    Warns answers U parallel here (.site inSpread r stage) w (ofProgress inSpread r p w').1
      (ofProgress inSpread r p w').2 := by
  have silent := move.adds
  have same := World.downgrades_of_adds silent
  have excused : w.Adds (answers.Excuses U) w' := silent.mono fun e none error some => by
    rw [none] at some
    cases some
  cases p with
  | waiting stage' => exact ⟨excused, fun _ => by simp [ofProgress, same]⟩
  | settled result =>
    rcases move.tells with told | ⟨i, -, rfl⟩
    · have found := agrees r used result (told.mono later)
      cases result with
      | ok v =>
        refine ⟨excused, fun _ => ?_⟩
        simp [ofProgress, same, Answers.failures_of_ok found.symm]
      | error e =>
        simp only [ofProgress]
        split
        · refine ⟨excused.extend rfl ?_, fun _ => ?_⟩
          · rintro error ⟨⟩
            exact ⟨r, used, found.symm⟩
          · simp [World.downgrades_log, same, Answers.failures_of_error found.symm, add_comm]
        · exact .of_failed excused
    · have failed : ofProgress inSpread r (.settled (.error (.interrupted i))) w'
          = (.failed (.interrupted i), w') := by
        simp [ofProgress, ResolveError.isInterruption]
      rw [failed]
      exact .of_failed excused

/-- Moves give up nothing that has data, and in the end everything that has none, if what is
said in the end is what the data says. -/
theorem Moves.warns {t t' : Task} (agrees : last.AgreesWith answers U)
    (moves : Moves parallel here t w t' w') (serves : Serves U (C + t.sites parallel here) w)
    (later : w'.Grows last) : Warns answers U parallel here t w t' w' := by
  induction moves generalizing C with
  | rest => exact .of_same rfl rfl
  | turn => exact .of_same rfl rfl
  | trans first next ih ih' =>
    have middle := first.keeps_all (Serves.endures U).toKeeps serves
    exact (ih serves ((next.grows middle.balanced).trans later)).trans (ih' middle later) next.sound
  | leaf live => exact .of_same rfl (by simp)
  | stop interrupted => exact .of_failed (.refl _ _)
  | @site here inSpread r stage w w' p move =>
    have used : U r := serves.references ⟨here, r, stage⟩ (by simp)
    have settled : w'.Grows last := (grows_ofProgress inSpread r p w').trans later
    exact warns_ofProgress agrees used move settled inSpread
  | @secret here inner inner' w w' moves tidy ih =>
    rw [sites_secret] at serves
    obtain ⟨excused, complete⟩ := ih serves later
    refine ⟨excused, fun sound => ?_⟩
    rw [pending, sites_inSecret, pending, sites_secret]
    exact complete sound.of_inSecret
  | @part here shape parts i t t' w w' found calm turn isOpen moves tidy ih =>
    obtain ⟨F, census, census'⟩ := sites_join_set found here
    rw [census] at serves
    obtain ⟨excused, complete⟩ := ih serves later
    refine ⟨excused, fun sound => ?_⟩
    have inside : t'.Sound := by
      cases sound with
      | join sound => exact sound t' (List.mem_set (List.getElem?_eq_some_iff.mp found).1 _)
    have before := census 0
    have after := census' 0 t'
    rw [zero_add] at before after
    rw [pending, pending, before, after, zero_add, Multiset.map_add, Multiset.map_add,
      Answers.failures_add, Answers.failures_add, add_left_comm, add_left_comm w.downgrades]
    exact congrArg _ (complete inside)
  | close => exact .of_same rfl (by rw [pending, sites_ofPolled, pending])
  | fail =>
    -- What is dropped is neither given up nor settled.
    exact .of_failed ((World.Adds.refl _ _).onward (release_trace _ _ _))

theorem Runs.warns {t t' : Task} (agrees : last.AgreesWith answers U)
    (runs : Runs parallel t w t' w') (serves : Serves U (t.sites parallel []) w)
    (later : w'.Grows last) : Warns answers U parallel [] t w t' w' := by
  induction runs with
  | trans first next ih ih' =>
    have middle := first.keeps_all (Serves.endures U) serves
    exact (ih serves ((next.grows middle.balanced).trans later)).trans (ih' middle later) next.sound
  | moves moves => exact moves.warns (C := 0) agrees (by simpa using serves) later
  | _ => exact .of_same rfl rfl

end Moving

end Task

namespace World

variable {w : World} {v : Value} {answers : Answers}

/-- What a run gives up if in the end the world says what the data says: nothing that has data,
and if it comes to a value, every reference without data, as often as it occurs. -/
theorem downgrades_of_agrees {U : Reference → Prop} (idle : w.IsIdle)
    (used : ∀ r ∈ v.references, U r) (agrees : (w.resolve v).2.AgreesWith answers U) :
    w.Adds (answers.Excuses U) (w.resolve v).2 ∧
      ∀ u, (w.resolve v).1 = some (.ok u) →
        (w.resolve v).2.downgrades = w.downgrades + answers.failures ↑v.references := by
  have fit := idle.fit w.resolver.policy.isParallel (Task.Unstarted.ofValue v)
  obtain ⟨t', w', x, ran, result, runs⟩ := runTask_ends fit
  rw [resolve, ran] at agrees ⊢
  obtain ⟨excused, complete⟩ := runs.warns agrees
    ⟨fit.balanced, fun s hs => used _ (Task.mem_references.mp ⟨s, hs, rfl⟩)⟩
    (.of_same rfl rfl rfl)
  refine ⟨excused.onward rfl, ?_⟩
  rintro u ⟨⟩
  cases t' with
  | finished v' =>
    have all := complete (.finished v')
    rwa [Task.pending_finished, Answers.failures_zero, add_zero, Task.pending_ofValue] at all
  | _ => cases result

theorem resolve_downgrades (idle : w.IsIdle) (fresh : w.resolver.cache = [])
    (follows : w.registry.Follows w.resolver.policy.fetchTimeout answers)
    (plain : ∀ r ∈ v.references, r.IsPlain) :
    w.Adds (answers.Excuses (· ∈ v.references)) (w.resolve v).2 ∧
      ∀ u, (w.resolve v).1 = some (.ok u) →
        (w.resolve v).2.downgrades = w.downgrades + answers.failures ↑v.references := by
  obtain ⟨x, w', ran, -, -, after⟩ := resolve_eval follows plain idle
    (Rooted.of_fresh w fresh (· ∈ v.references)) fun r hr => hr
  refine downgrades_of_agrees idle (fun r hr => hr) ?_
  rw [ran]
  exact after.agreesWith follows plain

/-- A run that may be interrupted is all or nothing. It comes to what the value stands for, or
has been interrupted and comes to an error. Whatever stops it, and whenever, it gives up no
reference that has data, and keeps no outcome but what a provider answers. If it comes to
a value, then any run in which nothing interrupts comes to the same, with the same warnings. -/
theorem resolve_all_or_nothing (w : World) (v : Value) (answers : Answers) (idle : w.IsIdle)
    (fresh : w.resolver.cache = [])
    (follows : w.registry.Follows w.resolver.policy.fetchTimeout answers)
    (plain : ∀ r ∈ v.references, r.IsPlain) :
    (∃ x, (w.resolve v).1 = some x ∧
      (x.toOption = v.eval answers w.resolver.policy.allowMissing ∨
        x.toOption = none ∧ (w.resolve v).2.interruption?.isSome = true)) ∧
      (w.resolve v).2.IsTruthful answers ∧
      w.Adds (fun e => ∀ error ∈ e.downgraded?, error.isInterruption = false ∧
        ∃ r ∈ v.references, answers.lookup r = .error error) (w.resolve v).2 ∧
      ∀ u, (w.resolve v).1 = some (.ok u) → ∀ context : Context,
        (context.IsQuiet ∧ w.registry.IsCalm ∨
          (World.resolve { w with context } v).2.interruption? = none) →
        (World.resolve { w with context } v).1 = some (.ok u) ∧
        (World.resolve { w with context } v).2.trace.warnings.Perm
          (w.resolve v).2.trace.warnings := by
  obtain ⟨x, w', ran, same, -, after⟩ := resolve_eval follows plain idle
    (Rooted.of_fresh w fresh (· ∈ v.references)) fun r hr => hr
  obtain ⟨excused, complete⟩ := resolve_downgrades idle fresh follows plain
  rw [ran] at excused complete ⊢
  refine ⟨⟨x, rfl, same⟩, after.isTruthful follows plain, excused.mono ?_, ?_⟩
  · intro e without error some
    obtain ⟨r, hr, failed⟩ := without error some
    exact ⟨Answers.not_isInterruption failed, r, hr, failed⟩
  rintro u ⟨⟩ context calm
  have value : some u = v.eval answers w.resolver.policy.allowMissing := by
    rcases same with same | ⟨none, -⟩
    · exact same
    · cases none
  have live : (World.resolve { w with context } v).2.interruption? = none := by
    rcases calm with ⟨quiet, calm⟩ | live
    · exact resolve_uninterrupted (w := { w with context }) v (idle.renew context) fresh quiet calm
    · exact live
  obtain ⟨y, w'', ran', same', -⟩ := resolve_eval (w := { w with context }) follows plain
    (idle.renew context) (Rooted.of_fresh { w with context } fresh (· ∈ v.references))
    fun r hr => hr
  obtain ⟨-, complete'⟩ := resolve_downgrades (w := { w with context }) (idle.renew context) fresh
    follows plain
  rw [ran'] at live complete' ⊢
  have value' : y = .ok u := by
    rcases same' with same' | ⟨-, interrupted⟩
    · exact toOption_eq_some_iff.mp (same'.trans value.symm)
    · rw [live] at interrupted
      cases interrupted
  subst value'
  refine ⟨rfl, Multiset.coe_eq_coe.mp ?_⟩
  rw [warnings_eq, warnings_eq, complete u rfl, complete' u rfl]
  rfl

/-- A reference with data and one without, and a deadline that is never reached. -/
theorem resolve_all_or_nothing_inTime :
    (World.resolve
        { registry := .only [] "app" (.echo 5), resolver := { policy.allowMissing := true } }
        (.list [.reference { «alias» := "app", path := ["host"] },
          .reference { «alias» := "db", path := ["port"] }])).1
      = some (.ok (.list [.string "host", .null])) := by
  obtain ⟨-, -, -, whole⟩ := resolve_all_or_nothing
    { registry := .only [] "app" (.echo 5), context := { deadline := some 9 },
      resolver := { policy.allowMissing := true } }
    (.list [.reference { «alias» := "app", path := ["host"] },
      .reference { «alias» := "db", path := ["port"] }]) _ ⟨rfl, rfl, rfl, rfl⟩ rfl
    (Registry.follows_only fun _ _ => rfl)
    (by
      intro r hr
      simp only [Value.references, Value.referencesOfItems, List.append_nil, List.mem_append,
        List.mem_singleton] at hr
      rcases hr with rfl | rfl <;> exact ⟨by decide, by decide⟩)
  exact (whole (.list [.string "host", .null]) rfl {} (.inr rfl)).1

end World

end LayeredConfig
