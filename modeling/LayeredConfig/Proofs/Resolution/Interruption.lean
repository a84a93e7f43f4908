import LayeredConfig.Proofs.Resolution.Answers
import LayeredConfig.Proofs.Resolution.Refusal

/-!
An interruption stops a run at once.

Once the context has been cancelled or its deadline has come, time stands still until the
run is over, and no initialisation and no fetch starts any more (`Task.Runs.halts`). So a
run is over by its deadline (`Task.Runs.meets`), and by the moment at which somebody
outside cancels (`Task.Steps.now_le_of_cancelAt`). `World.resolve_halts` puts this together
with what an interruption that comes before the run does.
-/

namespace LayeredConfig

/-- When a call of a provider started, if the event is the start of one. -/
def Event.startTime? : Event → Option Nat
  | .initStarted _ _ time => some time
  | .fetchStarted _ _ time => some time
  | _ => none

/-! ### After an interruption -/

/-- A world that has been interrupted, and in which no time has passed and nothing has started
since another one. -/
structure World.Halts (w w' : World) : Prop where
  interrupted : w'.interruption?.isSome = true
  now : w'.now = w.now
  starts : w.Adds (fun e => e.startTime? = none) w'

namespace World.Halts

variable {w w' w'' : World}

theorem refl (interrupted : w.interruption?.isSome = true) : w.Halts w :=
  ⟨interrupted, rfl, .refl w _⟩

/-- The context may be cancelled once more, and nothing happens. -/
theorem onward (halts : w.Halts w') (same : w'.SameMoment w'') (trace : w''.trace = w'.trace) :
    w.Halts w'' :=
  ⟨same.interruption halts.interrupted, same.1.trans halts.now, halts.starts.onward trace⟩

end World.Halts

/-- A reference that moves after an interruption starts nothing. -/
theorem Site.Move.halts {w₀ w w' : World} {r : Reference} {here : Address} {stage : Stage}
    {p : Progress} (halts : w₀.Halts w) (move : Site.Move r here stage w p w') : w₀.Halts w' := by
  have same := move.sameMoment
  have interrupted : w.interruption? ≠ none := Option.isSome_iff_ne_none.mp halts.interrupted
  rcases move.trace_cases with silent | ⟨_, live, _⟩ | ⟨live, _, _⟩ | ended
  · exact halts.onward same silent
  · exact absurd live interrupted
  · exact absurd live interrupted
  · exact ⟨same.interruption halts.interrupted, same.1.trans halts.now,
      halts.starts.extend ended rfl⟩

namespace Task

variable {parallel : Bool} {t t' : Task} {w w' : World}

/-- Once a run has been interrupted, no time passes and nothing starts, however it goes on. -/
theorem Runs.halts {w₀ : World} (runs : Runs parallel t w t' w') (halts : w₀.Halts w) :
    w₀.Halts w' := by
  have keeps : Keeps (fun _ w => w₀.Halts w) (fun _ w => w₀.Halts w) :=
    .of_world (fun h same trace => h.onward same trace) (fun h move => move.halts h)
      fun _ _ h => ⟨h.interrupted, h.now, h.starts.extend rfl rfl⟩
  induction runs with
  | rest => exact halts
  | trans _ _ ih ih' => exact ih' (ih halts)
  | moves moves => exact moves.keeps_all (C := 0) keeps halts
  | wait _ _ _ _ live => exact absurd live (Option.isSome_iff_ne_none.mp halts.interrupted)
  | strike => exact halts.onward ⟨rfl, .inr rfl⟩ rfl

/-! ### Deadlines -/

end Task

/-- A world that another one has come to with a deadline: no time beyond it has passed, and
whatever has started since started before it. -/
structure World.Meets (deadline : Nat) (w w' : World) : Prop where
  set : w'.context.deadline = some deadline
  now : w'.now ≤ max w.now deadline
  starts : w.Adds (fun e => ∀ time ∈ e.startTime?, time < deadline) w'

namespace World

variable {w w' w'' : World} {deadline : Nat}

theorem lt_of_live (set : w.context.deadline = some deadline) (live : w.interruption? = none) :
    w.now < deadline := by
  have early := (interruption?_eq_none_iff.mp live).2
  simpa [set, Context.reached] using early

namespace Meets

theorem refl (set : w.context.deadline = some deadline) : Meets deadline w w :=
  ⟨set, le_max_left _ _, .refl w _⟩

theorem set_of_sameMoment (meets : Meets deadline w w') (same : w'.SameMoment w'') :
    w''.context.deadline = some deadline := by
  rcases same.2 with context | context <;> rw [context]
  · exact meets.set
  · exact meets.set

theorem onward (meets : Meets deadline w w') (same : w'.SameMoment w'')
    (trace : w''.trace = w'.trace) : Meets deadline w w'' :=
  ⟨meets.set_of_sameMoment same, by rw [same.1]; exact meets.now, meets.starts.onward trace⟩

/-- Something happens, and if it is the start of a call, then it comes before the deadline. -/
theorem extend (meets : Meets deadline w w') (same : w'.SameMoment w'') {e : Event}
    (trace : w''.trace = e :: w'.trace) (early : ∀ time ∈ e.startTime?, time < deadline) :
    Meets deadline w w'' :=
  ⟨meets.set_of_sameMoment same, by rw [same.1]; exact meets.now, meets.starts.extend trace early⟩

end Meets

end World

theorem Site.Move.meets {w₀ w w' : World} {deadline : Nat} {r : Reference} {here : Address}
    {stage : Stage} {p : Progress} (meets : World.Meets deadline w₀ w)
    (move : Site.Move r here stage w p w') : World.Meets deadline w₀ w' := by
  have same := move.sameMoment
  have early : w.interruption? = none → w.now < deadline := World.lt_of_live meets.set
  rcases move.trace_cases with silent | ⟨_, live, started⟩ | ⟨live, _, started⟩ | ended
  · exact meets.onward same silent
  · exact meets.extend same started fun time now => by
      cases now
      exact early live
  · exact meets.extend same started fun time now => by
      cases now
      exact early live
  · exact meets.extend same ended fun time none => by cases none

namespace Task

variable {parallel : Bool} {t t' : Task} {w w' : World}

/-- A run does not outlast its deadline, and starts nothing from then on. -/
theorem Runs.meets {w₀ : World} {deadline : Nat} (runs : Runs parallel t w t' w')
    (meets : World.Meets deadline w₀ w) : World.Meets deadline w₀ w' := by
  have keeps : Keeps (fun _ w => World.Meets deadline w₀ w)
      (fun _ w => World.Meets deadline w₀ w) :=
    .of_world (fun h same trace => h.onward same trace) (fun h move => move.meets h)
      fun w _ h => h.extend (.refl w) rfl fun _ none => by cases none
  induction runs with
  | rest => exact meets
  | trans _ _ ih ih' => exact ih' (ih meets)
  | moves moves => exact moves.keeps_all (C := 0) keeps meets
  | @wait t w moment later waits due context live =>
    have ahead := World.lt_of_live meets.set live
    have inside : deadline ∈ w.contextMoments := by
      simp [World.contextMoments, meets.set]
    exact ⟨meets.set, (context deadline inside ahead).trans (le_max_right _ _),
      meets.starts⟩
  | strike => exact meets.onward ⟨rfl, .inr rfl⟩ rfl

/-! ### Cancellations from outside -/

/-- The next look at a task comes at once if anything can move, and otherwise at the next moment
at which something is due. -/
theorem look_of_step (step : t.step? parallel w = some (t', w')) :
    (ready parallel w [] t ≠ [] ∧ t.look parallel w = (t', w')) ∨
      ready parallel w [] t = [] ∧ ∃ moment,
        w.nextMoment? (t.moments ++ w.contextMoments) = some moment ∧
        t.look parallel (w.advanceTo moment) = (t', w') := by
  unfold step? nextPoll? at step
  by_cases waits : ready parallel w [] t = []
  · have unready : t.isReady parallel w [] = false := by simp [isReady, waits]
    rw [unready, if_neg Bool.false_ne_true, Option.map_eq_some_iff] at step
    exact .inr ⟨waits, step⟩
  · have now : w.advanceTo w.now = w := by simp [World.advanceTo]
    rw [isReady_iff.mpr waits, if_pos rfl, Option.map_some, now] at step
    exact .inl ⟨waits, Option.some.inj step⟩

theorem strike_sameMoment (w : World) : w.SameMoment w.strike := by
  unfold World.strike
  split
  · exact ⟨rfl, .inr rfl⟩
  · exact .refl w

theorem isStruck_strike (w : World) : w.strike.context.isStruck w.strike.now = false := by
  unfold World.strike
  split
  · rfl
  · rename_i calm
    simpa using calm

/-- A look takes no time, and whoever is to cancel by then has done so, unless the run is
over. -/
theorem Fit.look (fit : Fit parallel t w) :
    w.SameMoment (t.look parallel w).2 ∧
      ((t.look parallel w).1.isOver = true ∨
        (t.look parallel w).2.context.isStruck (t.look parallel w).2.now = false) := by
  obtain ⟨moves, -⟩ := (fit.plan (·.rouse (t.ready parallel w []))).poll
  have same : w.SameMoment _ := moves.sameMoment
  unfold Task.look
  generalize t.poll parallel [] (w.plan (·.rouse (t.ready parallel w []))) = looked at same ⊢
  obtain ⟨t', w'⟩ := looked
  dsimp only
  split
  · rename_i atEnd
    exact ⟨same, .inl atEnd⟩
  · exact ⟨same.trans (strike_sameMoment w'), .inr (isStruck_strike w')⟩

/-- A run does not outlast the moment at which somebody outside cancels: time passes only once
whoever is to cancel by now has done so. -/
theorem Steps.now_le_of_cancelAt (steps : Steps parallel t w t' w') (fit : Fit parallel t w)
    {moment : Nat} (set : w.context.cancelAt = some moment)
    (calm : t.isOver = true ∨ ready parallel w [] t ≠ [] ∨
      w.context.isStruck w.now = false) : w'.now ≤ max w.now moment := by
  induction steps with
  | rest => exact le_max_left _ _
  | @next t t₁ t' w w₁ w' isOpen step steps ih =>
    have fit₁ := ((Steps.next isOpen step (.rest t₁ w₁)).runs_and_fit fit).2
    have after : ∀ w₀ : World, t.look parallel w₀ = (t₁, w₁) → Fit parallel t w₀ →
        w₀.context = w.context → w₀.now ≤ max w.now moment → w'.now ≤ max w.now moment := by
      intro w₀ looked fit₀ context early
      obtain ⟨⟨now, context'⟩, calm'⟩ := fit₀.look
      rw [looked] at now context' calm'
      have set' : w₁.context.cancelAt = some moment := by
        rcases context' with same | same <;> rw [same, context]
        · exact set
        · exact set
      have later := ih fit₁ set' (calm'.imp_right .inr)
      dsimp only at now
      omega
    rcases look_of_step step with ⟨-, looked⟩ | ⟨waits, next, due, looked⟩
    · exact after w looked fit rfl (le_max_left _ _)
    · obtain ⟨-, later, least⟩ := World.nextMoment?_eq_some due
      have live := fit.live isOpen waits
      have ahead : w.now < moment := by
        have calm := (calm.resolve_left (by simp [isOpen])).resolve_left (by simp [waits])
        have open' := (World.interruption?_eq_none_iff.mp live).1
        simpa [Context.isStruck, open', set, Context.reached] using calm
      have inside : moment ∈ t.moments ++ w.contextMoments := by
        simp [World.contextMoments, set]
      have early := least moment inside ahead
      have advanced : w.advanceTo next = ({ w with now := next } : World).plan (·.settle []) := by
        simp [World.advanceTo, later]
      refine after (w.advanceTo next) looked ?_ ?_ ?_
      · rw [advanced]
        exact (fit.wait next).plan _
      · rw [advanced]
        rfl
      · rw [advanced]
        exact early.trans (le_max_right _ _)

end Task

namespace World

/-- An interruption stops a run at once, whatever it is doing. A context that is interrupted
from the start refuses every value. Once a run has been interrupted, no time passes and no
call of a provider starts until it is over. So a run is over by its deadline, before which
everything has started that it starts, and by the moment at which somebody outside cancels. -/
theorem resolve_halts (w : World) (v : Value) (idle : w.IsIdle) :
    (w.context.cancelled = true →
      w.resolve v = (some (.error (.interrupted .cancelled)), { w with agenda := {} })) ∧
    (∀ deadline, w.context.cancelled = false → w.context.deadline = some deadline →
      deadline ≤ w.now →
      w.resolve v = (some (.error (.interrupted .deadlineExceeded)), { w with agenda := {} })) ∧
    (∀ t₁ w₁ t₂ w₂, Task.Runs w.resolver.policy.isParallel (.ofValue v) w t₁ w₁ →
      w₁.interruption?.isSome = true → Task.Runs w.resolver.policy.isParallel t₁ w₁ t₂ w₂ →
      w₁.Halts w₂) ∧
    ∃ t' w' x, w.resolve v = (some x, { w' with agenda := {} }) ∧ t'.result? = some x ∧
      Task.Steps w.resolver.policy.isParallel (.ofValue v) w t' w' ∧
      (∀ t₁ w₁, Task.Steps w.resolver.policy.isParallel (.ofValue v) w t₁ w₁ →
        w₁.interruption?.isSome = true → w₁.Halts w') ∧
      (∀ deadline, w.context.deadline = some deadline → w.Meets deadline w') ∧
      (∀ moment, w.context.cancelAt = some moment → w'.now ≤ max w.now moment) := by
  have unstarted := Task.Unstarted.ofValue v
  have fit := idle.fit w.resolver.policy.isParallel unstarted
  refine ⟨?_, ?_, ?_, ?_⟩
  · intro cancelled
    exact resolve_interrupted w v (by simp [interruption?, Context.interruption?, cancelled])
  · intro deadline live set late
    exact resolve_interrupted w v
      (by simp [interruption?, Context.interruption?, live, set, Context.reached, late])
  · intro t₁ w₁ t₂ w₂ _ interrupted next
    exact next.halts (.refl interrupted)
  · obtain ⟨t', w', x, ran, result, steps⟩ := runTask_steps fit
    have runs := (steps.runs_and_fit fit).1
    refine ⟨t', w', x, ran, result, steps, ?_, ?_, ?_⟩
    · intro t₁ w₁ before interrupted
      have rest := before.onward steps (Task.isOver_of_result result)
      have fit₁ := (before.runs_and_fit fit).2
      exact (rest.runs_and_fit fit₁).1.halts (.refl interrupted)
    · intro deadline set
      exact runs.meets (.refl set)
    · intro moment set
      exact steps.now_le_of_cancelAt fit set (.inr (.inl (unstarted.ready_ne_nil w [])))

/-- Two fetches that take longer than the deadline allows. -/
theorem resolve_halts_slow :
    ∃ w', World.Meets 3
        { registry := .only [] "app" (.echo 5), context := { deadline := some 3 } } w' ∧
      World.resolve { registry := .only [] "app" (.echo 5), context := { deadline := some 3 } }
          (.list [.reference { «alias» := "app", path := ["host"] },
            .reference { «alias» := "app", path := ["port"] }])
        = (some (.error (.interrupted .deadlineExceeded)), { w' with agenda := {} }) := by
  obtain ⟨-, -, -, t', w', x, ran, -, -, -, meets, -⟩ := resolve_halts
    { registry := .only [] "app" (.echo 5), context := { deadline := some 3 } }
    (.list [.reference { «alias» := "app", path := ["host"] },
      .reference { «alias» := "app", path := ["port"] }]) ⟨rfl, rfl, rfl, rfl⟩
  refine ⟨w', meets 3 rfl, ?_⟩
  rw [ran]
  have result := congrArg Prod.fst ran
  obtain rfl : x = .error (.interrupted .deadlineExceeded) := by
    symm
    exact Option.some.inj result
  rfl

end World

end LayeredConfig
