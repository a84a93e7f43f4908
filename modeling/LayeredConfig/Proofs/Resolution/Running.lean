import LayeredConfig.Proofs.Resolution.Liveness
import LayeredConfig.Proofs.Resolution.Polling
import LayeredConfig.Resolution.Run

/-!
Every run comes to its end.

`Task.Runs` lists what happens in a run: moves at one moment, a wait for the next moment
at which something is due, and a cancellation from outside. `Task.Steps` lists the states
between the looks that a run takes, and whatever happens from one of them to the next is
such a run (`Task.Steps.runs_and_fit`). `Task.run_ends` says that a run of a task that is
fit, in a world that agrees with it, comes to a result. The fuel of a run never gives out:
every step either brings some reference closer to its end or is the one cancellation.
-/

namespace LayeredConfig

/-! ### Time and context during moves -/

/-- What moves may do to clock and context: nothing but cancel. -/
def World.SameMoment (w w' : World) : Prop :=
  w'.now = w.now ∧ (w'.context = w.context ∨ w'.context = w.context.cancel)

namespace World.SameMoment

variable {w w' w'' : World}

theorem refl (w : World) : w.SameMoment w := ⟨rfl, .inl rfl⟩

theorem trans (first : w.SameMoment w') (next : w'.SameMoment w'') : w.SameMoment w'' := by
  obtain ⟨now, context⟩ := first
  obtain ⟨now', context'⟩ := next
  refine ⟨now'.trans now, ?_⟩
  rcases context with same | same <;> rcases context' with same' | same' <;>
    simp [same, same', Context.cancel]

theorem heed {α : Type} (h : w.SameMoment w') (call : Call α) : w.SameMoment (w'.heed call) := by
  refine h.trans ⟨rfl, ?_⟩
  simp only [World.heed_context]
  split
  · exact .inr rfl
  · exact .inl rfl

/-- An interruption lasts. -/
theorem interruption (same : w.SameMoment w') (interrupted : w.interruption?.isSome = true) :
    w'.interruption?.isSome = true := by
  obtain ⟨now, context | context⟩ := same
  · simpa [interruption?, now, context] using interrupted
  · simp [interruption?, context, Context.interruption?, Context.cancel]

end World.SameMoment

theorem Context.reached_of_le {at? : Option Nat} {now later : Nat} (le : now ≤ later)
    (reached : Context.reached at? now = true) : Context.reached at? later = true := by
  cases at? with
  | none => cases reached
  | some moment =>
    simp only [Context.reached, decide_eq_true_eq] at reached ⊢
    omega

/-- A run goes on as long as its context is neither cancelled nor expired. -/
theorem World.interruption?_eq_none_iff {w : World} : w.interruption? = none ↔
    w.context.cancelled = false ∧ Context.reached w.context.deadline w.now = false := by
  unfold World.interruption? Context.interruption?
  cases w.context.cancelled <;> simp

theorem World.interruption_of_le {w : World} {moment : Nat} (later : w.now ≤ moment)
    (interrupted : w.interruption?.isSome = true) :
    ({ w with now := moment } : World).interruption?.isSome = true := by
  rw [Option.isSome_iff_ne_none, Ne, interruption?_eq_none_iff] at interrupted ⊢
  rintro ⟨open', early⟩
  refine interrupted ⟨open', Bool.eq_false_iff.mpr fun expired => ?_⟩
  rw [Context.reached_of_le later expired] at early
  cases early

theorem World.interruption_cancel (w : World) :
    ({ w with context := w.context.cancel } : World).interruption?.isSome = true := by
  simp [World.interruption?, Context.interruption?, Context.cancel]

theorem Site.surrender_sameMoment (r : Reference) (here : Address) (stage : Stage) (w : World) :
    w.SameMoment (surrender r here stage w) := by
  cases stage <;> exact .refl w

theorem Site.Move.sameMoment {r : Reference} {here : Address} {stage : Stage} {w w' : World}
    {p : Progress} (move : Site.Move r here stage w p w') : w.SameMoment w' := by
  cases move with
  | stop interrupted => exact surrender_sameMoment r here stage w
  | build => exact .heed (.refl w) _
  | launch => exact .heed (.refl w) _
  | launchQueued => exact .heed (.refl w) _
  | _ => exact .refl w

/-- A world whose trace goes on from that of another one, with nothing but events of a kind. -/
def World.Adds (w : World) (kind : Event → Prop) (w' : World) : Prop :=
  ∃ events, w'.trace = events ++ w.trace ∧ ∀ e ∈ events, kind e

namespace World.Adds

variable {w w' w'' : World} {kind : Event → Prop}

theorem refl (w : World) (kind : Event → Prop) : w.Adds kind w := ⟨[], rfl, by simp⟩

theorem onward (adds : w.Adds kind w') (same : w''.trace = w'.trace) : w.Adds kind w'' := by
  obtain ⟨events, trace, all⟩ := adds
  exact ⟨events, same.trans trace, all⟩

/-- One more event happens. -/
theorem extend (adds : w.Adds kind w') {e : Event} (same : w''.trace = e :: w'.trace)
    (new : kind e) : w.Adds kind w'' := by
  obtain ⟨events, trace, all⟩ := adds
  exact ⟨e :: events, by simp [same, trace], List.forall_mem_cons.mpr ⟨new, all⟩⟩

theorem mono {kind' : Event → Prop} (adds : w.Adds kind w') (same : ∀ e, kind e → kind' e) :
    w.Adds kind' w' := by
  obtain ⟨events, trace, all⟩ := adds
  exact ⟨events, trace, fun e he => same e (all e he)⟩

theorem trans (first : w.Adds kind w') (next : w'.Adds kind w'') : w.Adds kind w'' := by
  obtain ⟨events, trace, all⟩ := first
  obtain ⟨events', trace', all'⟩ := next
  refine ⟨events' ++ events, by rw [trace', trace, List.append_assoc], ?_⟩
  exact List.forall_mem_append.mpr ⟨all', all⟩

end World.Adds

theorem Site.surrender_trace (r : Reference) (here : Address) (stage : Stage) (w : World) :
    (surrender r here stage w).trace = w.trace := by
  cases stage <;> rfl

theorem Site.surrender_cache (r : Reference) (here : Address) (stage : Stage) (w : World) :
    (surrender r here stage w).resolver.cache = w.resolver.cache := by
  cases stage <;> rfl

/-- What is seen of a move: nothing, or that a call starts while nothing interrupts the run, or
that a fetch ends. -/
theorem Site.Move.trace_cases {r : Reference} {here : Address} {stage : Stage} {w w' : World}
    {p : Progress} (move : Site.Move r here stage w p w') :
    w'.trace = w.trace ∨
    (∃ config, w.interruption? = none ∧
      w'.trace = .initStarted r.alias config w.now :: w.trace) ∨
    (w.interruption? = none ∧
      (Assoc.get? w.resolver.cache r.key = none ∨ ∃ q, stage = .queued q) ∧
      w'.trace = .fetchStarted r.alias r.requestPath w.now :: w.trace) ∨
    w'.trace = .fetchEnded r.alias r.requestPath w.now :: w.trace := by
  cases move with
  | stop => exact .inl (surrender_trace r here stage w)
  | build _ _ live => exact .inr (.inl ⟨_, live, rfl⟩)
  | launch _ uncached _ live => exact .inr (.inr (.inl ⟨live, .inl uncached, rfl⟩))
  | launchQueued _ live => exact .inr (.inr (.inl ⟨live, .inr ⟨_, rfl⟩, rfl⟩))
  | arrived => exact .inr (.inr (.inr rfl))
  | _ => exact .inl rfl

namespace Task

variable {parallel : Bool}

/-- What moves keep of a world, whoever stands where. -/
theorem Keeps.of_world {P : World → Prop}
    (onward : ∀ {w w'}, P w → w.SameMoment w' → w'.trace = w.trace → P w')
    (move : ∀ {here r stage w p w'}, P w → Site.Move r here stage w p w' → P w')
    (warn : ∀ w e, P w → P (w.log (.downgraded e w.now))) :
    Keeps (fun _ w => P w) (fun _ w => P w) where
  turn _ w _ h := onward h (.refl w) rfl
  turnDropped _ w _ h := onward h (.refl w) rfl
  move h moved := move h moved
  warn _ _ _ h := warn _ _ h
  weaken _ _ h := h
  drop _ here r stage w h :=
    onward h (Site.surrender_sameMoment r here stage w) (Site.surrender_trace r here stage w)

theorem Moves.sameMoment {here : Address} {t t' : Task} {w w' : World}
    (moves : Moves parallel here t w t' w') : w.SameMoment w' := by
  have keeps : Keeps (fun _ w' => w.SameMoment w') (fun _ w' => w.SameMoment w') :=
    .of_world (fun h same _ => h.trans same) (fun h move => h.trans move.sameMoment)
      fun _ _ h => h
  exact moves.keeps_all (C := 0) keeps (.refl w)

/-! ### Moments -/

/-- The moments of a task are those of its references. -/
theorem mem_moments_iff {t : Task} {x : Nat} : ∀ here,
    x ∈ t.moments ↔ ∃ s ∈ t.sites parallel here, x ∈ Site.moments s.stage := by
  induction t using induct with
  | leaf v => simp [moments]
  | finished v => simp [moments]
  | failed e => simp [moments]
  | site inSpread r stage => simp [moments]
  | secret inner ih => simpa [moments] using ih
  | join shape parts ih =>
    intro here
    rw [moments, sites_join]
    generalize (⟨takeTurns parallel parts, 0⟩ : Step) = step
    induction parts generalizing step with
    | nil => simp [momentsOf]
    | cons t rest inner =>
      rw [momentsOf, List.mem_append, sitesOf_cons, ih t List.mem_cons_self (step :: here),
        inner (fun t ht => ih t (List.mem_cons_of_mem _ ht)) step.next]
      simp only [Multiset.mem_add, or_and_right, exists_or]

/-- A reference is ready at each of its moments. -/
theorem isReady_of_moment {r : Reference} {here : Address} {w : World} {stage : Stage}
    (due : w.now ∈ Site.moments stage) : Site.isReady r here w stage = true := by
  cases stage with
  | building wake outcome =>
    simp only [Site.moments, List.mem_singleton] at due
    simp [Site.isReady, due]
  | fetching wake outcome limit =>
    simp only [Site.moments, List.mem_cons, Option.mem_toList] at due
    rcases due with due | due
    · simp [Site.isReady, due]
    · simp [Site.isReady, due, Context.reached]
  | _ => simp [Site.moments] at due

/-- The moments of a reference that cannot move are still to come. -/
theorem lt_of_moment {r : Reference} {here : Address} {w : World} {stage : Stage} {x : Nat}
    (waits : stage = .fresh ∨ Site.isReady r here w stage = false) (hx : x ∈ Site.moments stage) :
    w.now < x := by
  cases stage with
  | building wake outcome =>
    simp only [Site.moments, List.mem_singleton] at hx
    simp only [Site.isReady, Bool.or_eq_false_iff, decide_eq_false_iff_not, reduceCtorEq,
      false_or] at waits
    omega
  | fetching wake outcome limit =>
    simp only [Site.isReady, Bool.or_eq_false_iff, decide_eq_false_iff_not, reduceCtorEq,
      false_or] at waits
    simp only [Site.moments, List.mem_cons, Option.mem_toList] at hx
    rcases hx with rfl | hx
    · omega
    · simp only [hx, Context.reached, decide_eq_false_iff_not] at waits
      omega
  | _ => simp [Site.moments] at hx

/-! ### Runs -/

/-- What happens in a run. -/
inductive Runs (parallel : Bool) : Task → World → Task → World → Prop where
  | rest (t : Task) (w : World) : Runs parallel t w t w
  | trans {t t' t'' : Task} {w w' w'' : World} (first : Runs parallel t w t' w')
      (next : Runs parallel t' w' t'' w'') : Runs parallel t w t'' w''
  | moves {t t' : Task} {w w' : World} (moves : Moves parallel [] t w t' w') :
      Runs parallel t w t' w'
  /-- Nothing can move before a moment at which something is due. -/
  | wait {t : Task} {w : World} {moment : Nat} (later : w.now < moment)
      (waits : ready parallel w [] t = [])
      (due : ∀ s ∈ t.sites parallel [], ∀ x ∈ Site.moments s.stage, moment ≤ x)
      (context : ∀ x ∈ w.contextMoments, w.now < x → moment ≤ x)
      (live : w.interruption? = none) :
      Runs parallel t w t { w with now := moment }
  /-- Somebody outside cancels. -/
  | strike {t : Task} {w : World} (struck : w.context.isStruck w.now = true) :
      Runs parallel t w t { w with context := w.context.cancel }

theorem Runs.interruption {t t' : Task} {w w' : World} (runs : Runs parallel t w t' w')
    (interrupted : w.interruption?.isSome = true) : w'.interruption?.isSome = true := by
  induction runs with
  | rest => exact interrupted
  | trans _ _ ih ih' => exact ih' (ih interrupted)
  | moves moves => exact moves.sameMoment.interruption interrupted
  | wait later => exact World.interruption_of_le later.le interrupted
  | strike => exact World.interruption_cancel _

/-- What every step of a run keeps: `I` as long as no error has dropped anything, `J`
always. -/
structure Endures (I J : Multiset Standing → World → Prop) : Prop extends Keeps I J where
  wait : ∀ S w moment, I S w → w.now < moment →
    (∀ s ∈ S, ∀ x ∈ Site.moments s.stage, moment ≤ x) → I S { w with now := moment }
  waitDropped : ∀ S w moment, J S w → w.now < moment →
    (∀ s ∈ S, ∀ x ∈ Site.moments s.stage, moment ≤ x) → J S { w with now := moment }
  strike : ∀ S w, I S w → w.context.isStruck w.now = true →
    I S { w with context := w.context.cancel }
  strikeDropped : ∀ S w, J S w → w.context.isStruck w.now = true →
    J S { w with context := w.context.cancel }

/-- What every step of a run keeps, whether or not an error has dropped anything. -/
structure Persists (I : Multiset Standing → World → Prop) : Prop where
  turn : ∀ S w f, I S w → I S (World.plan w f)
  move : ∀ {C here r stage w p w'}, I (⟨here, r, stage⟩ ::ₘ C) w →
    Site.Move r here stage w p w' → I (p.among here r C) w'
  warn : ∀ S w e, I S w → I S (World.log w (.downgraded e w.now))
  drop : ∀ C here r stage w, I (⟨here, r, stage⟩ ::ₘ C) w → I C (Site.surrender r here stage w)
  wait : ∀ S w moment, I S w → w.now < moment →
    (∀ s ∈ S, ∀ x ∈ Site.moments s.stage, moment ≤ x) → I S { w with now := moment }
  strike : ∀ S w, I S w → w.context.isStruck w.now = true →
    I S { w with context := w.context.cancel }

theorem Persists.endures {I : Multiset Standing → World → Prop} (persists : Persists I) :
    Endures I I :=
  { persists with
    turnDropped := persists.turn
    weaken := fun _ _ h => h
    waitDropped := persists.wait
    strikeDropped := persists.strike }

namespace Runs

variable {t t' : Task} {w w' : World} {I J : Multiset Standing → World → Prop}

theorem hasParts_le (runs : Runs parallel t w t' w') (has : t'.hasParts = true) :
    t.hasParts = true := by
  induction runs with
  | moves moves => exact moves.hasParts_le has
  | trans _ _ ih ih' => exact ih (ih' has)
  | _ => exact has

theorem prompt (runs : Runs parallel t w t' w') (prompt : t.Prompt parallel) :
    t'.Prompt parallel := by
  induction runs with
  | moves moves => exact moves.prompt prompt
  | trans _ _ ih ih' => exact ih' (ih prompt)
  | _ => exact prompt

/-- In a run, too, a doomed task only comes to its own end. -/
theorem of_doomed (endures : Endures I J) (runs : Runs parallel t w t' w')
    (doomed : t.isDoomed parallel = true) (before : J (t.sites parallel []) w) :
    t'.isDoomed parallel = true ∧ J (t'.sites parallel []) w' := by
  induction runs with
  | rest => exact ⟨doomed, before⟩
  | trans _ _ ih ih' =>
    obtain ⟨doomed', after⟩ := ih doomed before
    exact ih' doomed' after
  | moves moves =>
    simpa using moves.of_doomed (C := 0) endures.toKeeps doomed (by simpa using before)
  | wait later waits due context =>
    exact ⟨doomed, endures.waitDropped _ _ _ before later due⟩
  | strike struck => exact ⟨doomed, endures.strikeDropped _ _ before struck⟩

/-- What every step keeps, every run keeps. -/
theorem keeps (endures : Endures I J) (robust : (∀ S w, J S w → I S w) ∨ t.Prompt parallel)
    (runs : Runs parallel t w t' w') (before : I (t.sites parallel []) w) :
    J (t'.sites parallel []) w' ∧
      ((t.hasParts = true → t'.isDoomed parallel = false) → I (t'.sites parallel []) w') := by
  induction runs with
  | rest => exact ⟨endures.weaken _ _ before, fun _ => before⟩
  | @trans t t' t'' w w' w'' first next ih ih' =>
    obtain ⟨dropped, kept⟩ := ih robust before
    by_cases doomed : t.hasParts = true ∧ t'.isDoomed parallel = true
    · obtain ⟨doomed', after⟩ := next.of_doomed endures doomed.2 dropped
      exact ⟨after, fun calm => absurd (calm doomed.1) (by simp [doomed'])⟩
    · have middle := kept fun has => Bool.eq_false_iff.mpr fun h => doomed ⟨has, h⟩
      obtain ⟨dropped', kept'⟩ := ih' (robust.imp_right first.prompt) middle
      exact ⟨dropped', fun calm => kept' fun has => calm (first.hasParts_le has)⟩
  | moves moves =>
    simpa using moves.keeps (C := 0) endures.toKeeps robust (by simpa using before)
  | wait later waits due context =>
    have after := endures.wait _ _ _ before later due
    exact ⟨endures.weaken _ _ after, fun _ => after⟩
  | strike struck =>
    have after := endures.strike _ _ before struck
    exact ⟨endures.weaken _ _ after, fun _ => after⟩

theorem sound (runs : Runs parallel t w t' w') (well : t'.Sound) : t.Sound := by
  induction runs with
  | moves moves => exact moves.sound well
  | trans _ _ ih ih' => exact ih (ih' well)
  | _ => exact well

/-- Nothing is dropped in a run that ends well. -/
theorem keeps_of_sound (endures : Endures I J) (runs : Runs parallel t w t' w') (well : t'.Sound)
    (before : I (t.sites parallel []) w) : I (t'.sites parallel []) w' := by
  induction runs with
  | rest => exact before
  | trans first next ih ih' => exact ih' well (ih (next.sound well) before)
  | moves moves =>
    simpa using moves.keeps_of_sound (C := 0) endures.toKeeps well (by simpa using before)
  | wait later waits due context => exact endures.wait _ _ _ before later due
  | strike struck => exact endures.strike _ _ before struck

/-- What steps and drops alike keep, every run keeps. -/
theorem keeps_all (endures : Endures I I) (runs : Runs parallel t w t' w')
    (before : I (t.sites parallel []) w) : I (t'.sites parallel []) w' :=
  (runs.keeps endures (.inl fun _ _ h => h) before).1

end Runs

/-- Neither time nor context are among what the books are about. -/
theorem balanced_endures : Endures Balanced Balanced :=
  Persists.endures
    { balanced_keeps with
      wait := fun _ _ _ h _ _ => ⟨h.apart, h.builders, h.outcomes, h.queue, h.permits⟩
      strike := fun _ _ h _ => ⟨h.apart, h.builders, h.outcomes, h.queue, h.permits⟩ }

/-- A task and a world that agree: what a run begins with and keeps. -/
structure Fit (parallel : Bool) (t : Task) (w : World) : Prop where
  tidy : t.Tidy parallel
  orderly : t.Orderly parallel
  balanced : Balanced (t.sites parallel []) w

namespace Fit

variable {t : Task} {w : World}

theorem plan (fit : Fit parallel t w) (f : Agenda → Agenda) : Fit parallel t (w.plan f) :=
  ⟨fit.tidy, fit.orderly, fit.balanced.plan f⟩

theorem cancel (fit : Fit parallel t w) :
    Fit parallel t { w with context := w.context.cancel } :=
  ⟨fit.tidy, fit.orderly, fit.balanced.apart, fit.balanced.builders, fit.balanced.outcomes,
    fit.balanced.queue, fit.balanced.permits⟩

theorem wait (fit : Fit parallel t w) (moment : Nat) : Fit parallel t { w with now := moment } :=
  ⟨fit.tidy, fit.orderly, fit.balanced.apart, fit.balanced.builders, fit.balanced.outcomes,
    fit.balanced.queue, fit.balanced.permits⟩

/-- A look at a task is a run of moves, and leaves task and world in agreement. -/
theorem poll (fit : Fit parallel t w) :
    Moves parallel [] t w (t.poll parallel [] w).1 (t.poll parallel [] w).2 ∧
      Fit parallel (t.poll parallel [] w).1 (t.poll parallel [] w).2 := by
  have balanced : Balanced (0 + t.sites parallel []) w := by simpa using fit.balanced
  obtain ⟨moves, tidy⟩ := poll_moves fit.tidy balanced
  refine ⟨moves, tidy, moves.orderly fit.orderly, ?_⟩
  simpa using moves.keeps_all balanced_keeps balanced

/-- Where nothing can move, time will lead on. -/
theorem exists_underway (fit : Fit parallel t w) (isOpen : t.isOver = false)
    (waits : ready parallel w [] t = []) :
    ∃ s ∈ t.sites parallel [], s.stage.isUnderway = true ∧
      Site.isReady s.reference s.address w s.stage = false := by
  have still := isReady_of_ready_eq_nil fit.orderly waits
  obtain ⟨s, hs, underway⟩ :=
    fit.balanced.exists_underway still (exists_begun fit.tidy isOpen waits)
  refine ⟨s, hs, underway, (still s hs).resolve_left ?_⟩
  intro fresh
  rw [fresh] at underway
  cases underway

/-- Time does not lead on once the run has been interrupted: whatever is under way stops. -/
theorem live (fit : Fit parallel t w) (isOpen : t.isOver = false)
    (waits : ready parallel w [] t = []) : w.interruption? = none := by
  obtain ⟨s, hs, underway, unready⟩ := fit.exists_underway isOpen waits
  have watchful : s.stage.isWatchful = true := by
    cases h : s.stage <;> simp_all [Stage.isUnderway, Stage.isWatchful]
  simp only [Site.isReady, watchful, Bool.true_and, Bool.or_eq_false_iff] at unready
  simpa using unready.1

end Fit

/-! ### Steps -/

end Task

namespace World

/-- Whether somebody outside is yet to cancel. -/
def isPending (w : World) : Bool := !w.context.cancelled && w.context.cancelAt.any (w.now < ·)

/-- Nobody comes to be about to cancel. -/
theorem isPending_of_sameMoment {w w' : World} (same : w.SameMoment w')
    (pending : w'.isPending = true) : w.isPending = true := by
  obtain ⟨now, context | context⟩ := same
  · simpa [isPending, now, context] using pending
  · simp [isPending, context, Context.cancel] at pending

theorem isPending_of_le {w : World} {moment : Nat} (later : w.now ≤ moment)
    (pending : ({ w with now := moment } : World).isPending = true) : w.isPending = true := by
  simp only [isPending, Bool.and_eq_true, Option.any_eq_true, decide_eq_true_eq] at pending ⊢
  obtain ⟨live, x, hx, ahead⟩ := pending
  exact ⟨live, x, hx, by omega⟩

theorem isPending_strike {w : World} (pending : w.strike.isPending = true) :
    w.isPending = true ∧ w.context.isStruck w.now = false := by
  unfold strike at pending
  split at pending
  · simp [isPending, cancel, wakeAll, plan, Context.cancel] at pending
  · rename_i h
    exact ⟨pending, by simpa using h⟩

/-- The next of several moments is one of them, and none of them comes before it. -/
theorem nextMoment?_eq_some {w : World} {moments : List Nat} {m : Nat}
    (next : w.nextMoment? moments = some m) :
    m ∈ moments ∧ w.now < m ∧ ∀ x ∈ moments, w.now < x → m ≤ x := by
  have least := List.min?_eq_some_iff.mp next
  obtain ⟨inside, le⟩ := least
  obtain ⟨inside, later⟩ := List.mem_filter.mp inside
  exact ⟨inside, by simpa using later, fun x hx ahead => le x (List.mem_filter.mpr ⟨hx, by simpa⟩)⟩

theorem exists_nextMoment? {w : World} {moments : List Nat} {x : Nat} (hx : x ∈ moments)
    (later : w.now < x) : ∃ m, w.nextMoment? moments = some m := by
  refine Option.isSome_iff_exists.mp (List.isSome_min?_of_mem (a := x) ?_)
  exact List.mem_filter.mpr ⟨hx, by simpa using later⟩

end World

namespace Task

variable {parallel : Bool} {t : Task} {w : World}

/-- How many steps a run can still make: one for every move, and one for a cancellation. -/
def potential (t : Task) (w : World) : Nat := t.remaining + if w.isPending then 1 else 0

theorem strike_step (fit : Fit parallel t w) :
    Runs parallel t w t w.strike ∧ Fit parallel t w.strike ∧
      potential t w.strike ≤ potential t w := by
  refine ⟨?_, ?_, ?_⟩
  · unfold World.strike
    split
    · rename_i struck
      exact (Runs.strike struck).trans (.moves (.turn _ _ _ (·.wakeAll w.agenda.watching)))
    · exact .rest t w
  · unfold World.strike
    split
    · exact fit.cancel.plan (·.wakeAll w.agenda.watching)
    · exact fit
  · unfold potential
    split
    · rename_i h
      rw [if_pos (World.isPending_strike h).1]
    · exact Nat.add_le_add_left (Nat.zero_le _) _

/-- A look at a task that can move comes closer to its end. -/
theorem look_of_ready (fit : Fit parallel t w) (can : ready parallel w [] t ≠ []) :
    Runs parallel t w (t.look parallel w).1 (t.look parallel w).2 ∧
      Fit parallel (t.look parallel w).1 (t.look parallel w).2 ∧
      potential (t.look parallel w).1 (t.look parallel w).2 < potential t w := by
  have roused := fit.plan (·.rouse (t.ready parallel w []))
  have awake := isAwake_rouse parallel t [] w
  have can' : ready parallel (w.plan (·.rouse (t.ready parallel w []))) [] t ≠ [] := by
    rwa [ready_plan]
  have lt := pollWithin_agile parallel t.height [] t _ le_rfl fit.tidy awake can'
  obtain ⟨moves, fit'⟩ := roused.poll
  have turned := (Moves.turn [] t w (·.rouse (t.ready parallel w []))).trans moves
  unfold look
  rw [← poll] at lt
  generalize t.poll parallel [] (w.plan (·.rouse (t.ready parallel w []))) = looked
    at lt turned fit' ⊢
  obtain ⟨t', w'⟩ := looked
  have runs : Runs parallel t w t' w' := .moves turned
  have less : potential t' w' < potential t w := by
    unfold potential
    split
    · rename_i h
      rw [if_pos (World.isPending_of_sameMoment turned.sameMoment h)]
      exact Nat.add_lt_add_right lt 1
    · exact Nat.lt_of_lt_of_le lt (Nat.le_add_right _ _)
  dsimp only
  split
  · exact ⟨runs, fit', less⟩
  · obtain ⟨runs', fit'', le⟩ := strike_step fit'
    exact ⟨runs.trans runs', fit'', Nat.lt_of_le_of_lt le less⟩

/-- A look at a task that cannot move does nothing but let somebody cancel. -/
theorem look_of_not_ready (tidy : t.Tidy parallel) (isOpen : t.isOver = false)
    (waits : ready parallel w [] t = []) :
    ∃ f, t.look parallel w = (t, (w.plan f).strike) := by
  have waits' : ready parallel (w.plan (·.rouse (t.ready parallel w []))) [] t = [] := by
    rwa [ready_plan]
  obtain ⟨same, f, put, -⟩ := pollWithin_idle parallel t.height [] t _ tidy waits'
  rw [← poll] at same put
  refine ⟨fun g => f (g.rouse (t.ready parallel w [])), ?_⟩
  unfold look
  generalize t.poll parallel [] (w.plan (·.rouse (t.ready parallel w []))) = looked at same put ⊢
  obtain ⟨t', w'⟩ := looked
  obtain rfl : t' = t := same
  obtain rfl : w' = _ := put
  dsimp only
  rw [isOpen]
  rfl

/-- If nothing can move at the moment for which a run has waited, the wait was for the
cancellation from outside. -/
theorem isStruck_of_wait (fit : Fit parallel t w) (isOpen : t.isOver = false)
    (waits : ready parallel w [] t = []) {moment : Nat}
    (next : w.nextMoment? (t.moments ++ w.contextMoments) = some moment)
    (still : ready parallel { w with now := moment } [] t = []) :
    w.isPending = true ∧ w.context.isStruck moment = true := by
  obtain ⟨inside, later, -⟩ := World.nextMoment?_eq_some next
  obtain ⟨s, hs, underway, unready⟩ := fit.exists_underway isOpen waits
  have watchful : s.stage.isWatchful = true := by
    cases h : s.stage <;> simp_all [Stage.isUnderway, Stage.isWatchful]
  have live := fit.live isOpen waits
  have begun : s.stage ≠ .fresh := by
    rintro h
    rw [h] at underway
    cases underway
  have unready' := (isReady_of_ready_eq_nil fit.orderly still s hs).resolve_left begun
  have live' : ({ w with now := moment } : World).interruption? = none := by
    simp only [Site.isReady, watchful, Bool.true_and, Bool.or_eq_false_iff] at unready'
    simpa using unready'.1
  have open' := (World.interruption?_eq_none_iff.mp live).1
  rw [List.mem_append] at inside
  rcases inside with inside | inside
  · -- A moment of a reference would let it move.
    obtain ⟨q, hq, due⟩ := (mem_moments_iff []).mp inside
    have can : Site.isReady q.reference q.address { w with now := moment } q.stage = true :=
      isReady_of_moment due
    rcases isReady_of_ready_eq_nil fit.orderly still q hq with fresh | wait
    · rw [fresh] at due
      simp [Site.moments] at due
    · rw [can] at wait
      cases wait
  · simp only [World.contextMoments, List.mem_append, Option.mem_toList] at inside
    rcases inside with deadline | cancelAt
    · -- Nor is the deadline there, since the run goes on.
      have early := (World.interruption?_eq_none_iff.mp live').2
      simp [deadline, Context.reached] at early
    · exact ⟨by simp [World.isPending, open', cancelAt, later],
        by simp [Context.isStruck, open', cancelAt, Context.reached]⟩

/-- The wait of a run whose task cannot move now. -/
theorem advance_step (fit : Fit parallel t w) (isOpen : t.isOver = false)
    (waits : ready parallel w [] t = []) {moment : Nat}
    (next : w.nextMoment? (t.moments ++ w.contextMoments) = some moment) :
    Runs parallel t w t (w.advanceTo moment) ∧ Fit parallel t (w.advanceTo moment) ∧
      potential t (w.advanceTo moment) ≤ potential t w := by
  obtain ⟨-, later, least⟩ := World.nextMoment?_eq_some next
  have advanced : w.advanceTo moment = ({ w with now := moment } : World).plan (·.settle []) := by
    simp [World.advanceTo, later]
  rw [advanced]
  refine ⟨.trans (.wait later waits ?_ ?_ (fit.live isOpen waits)) (.moves (.turn _ _ _ _)),
    (fit.wait moment).plan _, ?_⟩
  · intro s hs x hx
    apply least x (List.mem_append_left _ ((mem_moments_iff []).mpr ⟨s, hs, hx⟩))
    exact lt_of_moment (isReady_of_ready_eq_nil fit.orderly waits s hs) hx
  · intro x hx ahead
    exact least x (List.mem_append_right _ hx) ahead
  · unfold potential
    split
    · rename_i h
      rw [if_pos (World.isPending_of_le later.le h)]
    · exact Nat.add_le_add_left (Nat.zero_le _) _

/-- A run that is not over goes on, and comes closer to its end. -/
theorem exists_step (fit : Fit parallel t w) (isOpen : t.isOver = false) :
    ∃ t' w', t.step? parallel w = some (t', w') ∧ Runs parallel t w t' w' ∧
      Fit parallel t' w' ∧ potential t' w' < potential t w := by
  unfold step? nextPoll?
  by_cases waits : ready parallel w [] t = []
  · -- Time leads on to the next moment at which something is due.
    obtain ⟨s, hs, underway, unready⟩ := fit.exists_underway isOpen waits
    obtain ⟨x, hx⟩ : ∃ x, x ∈ Site.moments s.stage := by
      cases h : s.stage with
      | building wake outcome => exact ⟨wake, by simp [Site.moments]⟩
      | fetching wake outcome limit => exact ⟨wake, by simp [Site.moments]⟩
      | _ => simp [h, Stage.isUnderway] at underway
    have ahead : x ∈ t.moments ++ w.contextMoments :=
      List.mem_append_left _ ((mem_moments_iff []).mpr ⟨s, hs, hx⟩)
    obtain ⟨m, next⟩ := World.exists_nextMoment? ahead (lt_of_moment (.inr unready) hx)
    obtain ⟨waited, fitNow, notMore⟩ := advance_step fit isOpen waits next
    have unreadyNow : t.isReady parallel w [] = false := by simp [isReady, waits]
    rw [unreadyNow, if_neg Bool.false_ne_true, next]
    refine ⟨(t.look parallel (w.advanceTo m)).1, (t.look parallel (w.advanceTo m)).2, rfl, ?_⟩
    by_cases still : ready parallel (w.advanceTo m) [] t = []
    · have later := (World.nextMoment?_eq_some next).2.1
      have advanced : w.advanceTo m = ({ w with now := m } : World).plan (·.settle []) := by
        simp [World.advanceTo, later]
      obtain ⟨pending, struck⟩ := isStruck_of_wait fit isOpen waits next
        (by rwa [advanced, ready_plan] at still)
      obtain ⟨f, looked⟩ := look_of_not_ready fit.tidy isOpen still
      obtain ⟨runs, fit', -⟩ := strike_step (fitNow.plan f)
      rw [looked]
      refine ⟨waited.trans (.trans (.moves (.turn _ _ _ f)) runs), fit', ?_⟩
      unfold potential
      rw [if_pos pending, if_neg]
      · exact Nat.lt_succ_self _
      · intro h
        have quiet := (World.isPending_strike h).2
        rw [advanced] at quiet
        exact absurd struck (by simpa using quiet)
    · obtain ⟨runs, fit', lt⟩ := look_of_ready fitNow still
      exact ⟨waited.trans runs, fit', Nat.lt_of_lt_of_le lt notMore⟩
  · have can : t.isReady parallel w [] = true := isReady_iff.mpr waits
    have now : w.advanceTo w.now = w := by simp [World.advanceTo]
    rw [can, if_pos rfl]
    refine ⟨(t.look parallel (w.advanceTo w.now)).1, (t.look parallel (w.advanceTo w.now)).2, rfl,
      ?_⟩
    rw [now]
    exact look_of_ready fit waits

/-- A tidy task that is not over has moves left. -/
theorem remaining_pos (tidy : t.Tidy parallel) (isOpen : t.isOver = false) : 0 < t.remaining := by
  induction t using induct with
  | leaf v => exact Nat.one_pos
  | finished v => cases isOpen
  | failed e => cases isOpen
  | site inSpread r stage => exact Site.remaining_pos stage
  | secret inner ih =>
    cases tidy with
    | secret isOpen tidy => exact ih tidy isOpen
  | join shape parts ih =>
    obtain ⟨front, p, back, rfl, -, isOpen'⟩ := tidy.exists_open
    have inside : p ∈ front ++ p :: back := by simp
    have tidy' : p.Tidy parallel := by
      cases tidy with
      | join unfinished calm tidy => exact tidy p inside
    exact Nat.lt_of_lt_of_le (ih p inside tidy' isOpen') (remaining_le_of_mem inside)

theorem result?_of_isOver (atEnd : t.isOver = true) : ∃ x, t.result? = some x := by
  cases t with
  | finished v => exact ⟨_, rfl⟩
  | failed e => exact ⟨_, rfl⟩
  | _ => cases atEnd

theorem result?_of_isOpen (isOpen : t.isOver = false) : t.result? = none := by
  cases t with
  | finished v => cases isOpen
  | failed e => cases isOpen
  | _ => rfl

theorem isOver_of_result {x : Except ResolveError Value} (result : t.result? = some x) :
    t.isOver = true := by
  cases t with
  | finished v => rfl
  | failed e => rfl
  | _ => cases result

theorem release_of_isOver (atEnd : t.isOver = true) : t.release parallel [] w = w := by
  cases t with
  | finished v => rw [release]
  | failed e => rw [release]
  | _ => cases atEnd

/-- The states that a run goes through, one look after another. -/
inductive Steps (parallel : Bool) : Task → World → Task → World → Prop where
  | rest (t : Task) (w : World) : Steps parallel t w t w
  | next {t t' t'' : Task} {w w' w'' : World} (isOpen : t.isOver = false)
      (step : t.step? parallel w = some (t', w')) (steps : Steps parallel t' w' t'' w'') :
      Steps parallel t w t'' w''

namespace Steps

variable {t' t'' : Task} {w' w'' : World}

/-- Every look is one of the things that happen in a run. -/
theorem runs_and_fit (steps : Steps parallel t w t' w') (fit : Fit parallel t w) :
    Runs parallel t w t' w' ∧ Fit parallel t' w' := by
  induction steps with
  | rest t w => exact ⟨.rest t w, fit⟩
  | next isOpen step _ ih =>
    obtain ⟨_, _, step', runs, fit', -⟩ := exists_step fit isOpen
    cases step.symm.trans step'
    obtain ⟨runs', fit''⟩ := ih fit'
    exact ⟨runs.trans runs', fit''⟩

/-- A run goes on from every state on the way to its end. -/
theorem onward (steps : Steps parallel t w t' w') (whole : Steps parallel t w t'' w'')
    (atEnd : t''.isOver = true) : Steps parallel t' w' t'' w'' := by
  induction steps with
  | rest => exact whole
  | next isOpen step _ ih =>
    cases whole with
    | rest =>
      rw [isOpen] at atEnd
      cases atEnd
    | next isOpen step' steps' =>
      cases step.symm.trans step'
      exact ih steps'

end Steps

/-- Where a run gets to before it runs out of fuel, and drops what is not over by then. -/
theorem run_steps (fuel : Nat) : ∀ {t w}, Fit parallel t w →
    ∃ t' w', t.run parallel fuel w = (t'.result?, t'.release parallel [] w') ∧
      Steps parallel t w t' w' ∧ (potential t w ≤ fuel → t'.isOver = true) := by
  induction fuel with
  | zero =>
    intro t w fit
    refine ⟨t, w, rfl, .rest t w, ?_⟩
    intro enough
    cases h : t.isOver with
    | true => rfl
    | false =>
      have pos := remaining_pos fit.tidy h
      unfold potential at enough
      omega
  | succ fuel ih =>
    intro t w fit
    rw [run]
    cases atEnd : t.isOver with
    | true =>
      obtain ⟨x, result⟩ := result?_of_isOver atEnd
      refine ⟨t, w, ?_, .rest t w, fun _ => atEnd⟩
      rw [result, release_of_isOver atEnd]
    | false =>
      obtain ⟨t', w', step, runs, fit', lt⟩ := exists_step fit atEnd
      rw [result?_of_isOpen atEnd, step]
      obtain ⟨t'', w'', ran, steps, ends⟩ := ih fit'
      exact ⟨t'', w'', ran, .next atEnd step steps, fun enough => ends (by omega)⟩

/-- A run that has fuel for every step comes to a result. -/
theorem run_ends (fuel : Nat) {t : Task} {w : World} (fit : Fit parallel t w)
    (enough : potential t w ≤ fuel) :
    ∃ t' w' x, t.run parallel fuel w = (some x, w') ∧ t'.result? = some x ∧
      Steps parallel t w t' w' := by
  obtain ⟨t', w', ran, steps, ends⟩ := run_steps fuel fit
  obtain ⟨x, result⟩ := result?_of_isOver (ends enough)
  refine ⟨t', w', x, ?_, result, steps⟩
  rw [ran, result, release_of_isOver (ends enough)]

end Task

end LayeredConfig
