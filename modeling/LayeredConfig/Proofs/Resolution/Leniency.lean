import LayeredConfig.Proofs.Resolution.Headway
import LayeredConfig.Proofs.Resolution.Running

/-!
Allowing missing data makes no difference as long as nothing fails.

What a single reference does never depends on whether missing data is allowed
(`Site.poll_allowing`); only what is made of its error does. So a strict run in which
nothing fails goes through the same worlds as a lenient one, up to the policy. What has
failed stays failed, so a strict run that comes to a value is such a run
(`World.runTask_lenient`).
-/

namespace LayeredConfig

/-! ### What does not depend on it -/

namespace World

/-- The same world, in which missing data is allowed or not. -/
def allowing (lenient : Bool) (w : World) : World :=
  { w with resolver.policy.allowMissing := lenient }

variable (b : Bool) (w : World)

@[simp] theorem allowing_now : (w.allowing b).now = w.now := rfl
@[simp] theorem allowing_context : (w.allowing b).context = w.context := rfl
@[simp] theorem allowing_registry : (w.allowing b).registry = w.registry := rfl
@[simp] theorem allowing_agenda : (w.allowing b).agenda = w.agenda := rfl
@[simp] theorem allowing_trace : (w.allowing b).trace = w.trace := rfl
@[simp] theorem allowing_cache : (w.allowing b).resolver.cache = w.resolver.cache := rfl
@[simp] theorem allowing_lines : (w.allowing b).resolver.lines = w.resolver.lines := rfl
@[simp] theorem allowing_hasSpare : (w.allowing b).resolver.hasSpare = w.resolver.hasSpare := rfl
@[simp] theorem allowing_isNext (a : Address) :
    (w.allowing b).resolver.isNext a = w.resolver.isNext a := rfl
@[simp] theorem allowing_fetchTimeout :
    (w.allowing b).resolver.policy.fetchTimeout = w.resolver.policy.fetchTimeout := rfl
@[simp] theorem allowing_interruption? : (w.allowing b).interruption? = w.interruption? := rfl
@[simp] theorem allowing_plan (f : Agenda → Agenda) :
    (w.allowing b).plan f = (w.plan f).allowing b := rfl
@[simp] theorem allowing_log (e : Event) :
    (w.allowing b).log e = (w.log e).allowing b := rfl
@[simp] theorem allowing_updateRegistry (f : Registry → Registry) :
    (w.allowing b).updateRegistry f = (w.updateRegistry f).allowing b := rfl
@[simp] theorem allowing_lineUp (key : String) (a : Address) :
    (w.allowing b).update (·.lineUp key a) = (w.update (·.lineUp key a)).allowing b := rfl
@[simp] theorem allowing_enqueue (a : Address) :
    (w.allowing b).update (·.enqueue a) = (w.update (·.enqueue a)).allowing b := rfl
@[simp] theorem allowing_takePermit :
    (w.allowing b).update Resolver.takePermit = (w.update Resolver.takePermit).allowing b := rfl
@[simp] theorem allowing_leaveLine (key : String) (a : Address) :
    (w.allowing b).leaveLine key a = (w.leaveLine key a).allowing b := rfl
@[simp] theorem allowing_setBuilt (name : String) (a : Address)
    (result : Except SetupError Provider) :
    (w.allowing b).setBuilt name a result = (w.setBuilt name a result).allowing b := rfl

/-- The start of a call does not depend on whether data may be missing. -/
theorem begin_allowing {α : Type} (here : Address) (call : Call α) :
    Site.begin here call (w.allowing b) = (Site.begin here call w).allowing b := by
  unfold Site.begin World.begin
  split <;> rfl

end World

namespace Site
variable (b : Bool) (r : Reference) (here : Address) (w : World)

theorem endFetch_allowing (o : Outcome) :
    endFetch r here o (w.allowing b) = (endFetch r here o w).map id (World.allowing b) := rfl

/-- Nor does a look at a fetch. -/
theorem watchFetch_allowing (wake : Nat) (outcome : Except Failure Value) (limit : Option Nat) :
    watchFetch r here wake outcome limit (w.allowing b)
      = (watchFetch r here wake outcome limit w).map id (World.allowing b) := by
  unfold watchFetch
  by_cases due : wake ≤ w.now
  · simp [due, endFetch_allowing]
  · by_cases late : Context.reached limit w.now <;> simp [due, late, endFetch_allowing]

theorem launch_allowing (p : Provider) :
    launch p r here (w.allowing b) = (launch p r here w).map id (World.allowing b) := by
  unfold launch
  by_cases quick : (p.fetch w.trace r.requestPath).delay = 0 <;>
    simp [quick, World.begin_allowing, watchFetch_allowing, endFetch_allowing]

/-- Nor does the way to a permit. -/
theorem acquire_allowing (p : Provider) :
    acquire p r here (w.allowing b) = (acquire p r here w).map id (World.allowing b) := by
  unfold acquire
  cases interrupted : w.interruption? with
  | some i => simp [interrupted]
  | none =>
    cases spare : w.resolver.hasSpare <;> simp [interrupted, spare, launch_allowing]

/-- Nor does the way to an outcome. -/
theorem share_allowing (p : Provider) :
    share p r here (w.allowing b) = (share p r here w).map id (World.allowing b) := by
  unfold share
  cases cached : Assoc.get? w.resolver.cache r.key with
  | some o => simp [cached]
  | none =>
    by_cases first : (w.resolver.lineUp r.key here).lines.isFirst r.key here <;>
      simp [cached, first, acquire_allowing]

theorem withProvider_allowing (result : Except SetupError Provider) :
    withProvider r here result (w.allowing b)
      = (withProvider r here result w).map id (World.allowing b) := by
  cases result with
  | ok p => exact share_allowing b r here w p
  | error e => rfl

theorem endBuild_allowing (result : Except SetupError Provider) :
    endBuild r here result (w.allowing b)
      = (endBuild r here result w).map id (World.allowing b) := by
  rw [endBuild, World.allowing_setBuilt, withProvider_allowing, endBuild]

theorem build_allowing (providerType : String) (config : Fields) :
    build r here providerType config (w.allowing b)
      = (build r here providerType config w).map id (World.allowing b) := by
  unfold build
  cases known : Assoc.get? w.registry.types providerType with
  | none => simp [known, endBuild_allowing]
  | some t =>
    by_cases quick : (t.init w.trace r.alias config).delay = 0 <;>
      simp [known, quick, World.begin_allowing, endBuild_allowing]

/-- Nor does the way to a provider. -/
theorem provide_allowing :
    provide r here (w.allowing b) = (provide r here w).map id (World.allowing b) := by
  unfold provide
  cases bound : Assoc.get? w.registry.bindings r.alias with
  | none => simp [bound]
  | some binding =>
    cases binding with
    | installed p => simp [bound, share_allowing]
    | declared providerType config built =>
      cases built with
      | some result => simp [bound, withProvider_allowing]
      | none =>
        by_cases first : (w.registry.lineUp r.alias here).lines.isFirst r.alias here <;>
          simp [bound, first, build_allowing]

theorem start_allowing :
    start r here (w.allowing b) = (start r here w).map id (World.allowing b) := by
  unfold start
  cases cached : Assoc.get? w.resolver.cache r.key <;> simp [cached, provide_allowing]

/-- What a site gives back does not depend on whether data may be missing. -/
theorem release_allowing (stage : Stage) :
    release r here (w.allowing b) stage = (release r here w stage).allowing b := by
  cases stage with
  | queued p =>
    unfold release World.leaveQueue
    cases served : w.resolver.isNext here <;> simp [served] <;> rfl
  | _ => rfl

/-- No stage of a site asks whether data may be missing. -/
theorem proceed_allowing (stage : Stage) :
    proceed r here (w.allowing b) stage = (proceed r here w stage).map id (World.allowing b) := by
  cases stage with
  | fresh => exact start_allowing b r here w
  | awaitingProvider => exact provide_allowing b r here w
  | building wake outcome => exact endBuild_allowing b r here w _
  | awaitingOutcome p => exact share_allowing b r here w p
  | queued p => exact launch_allowing b r here (w.update fun s => (s.leaveQueue here).takePermit) p
  | fetching wake outcome limit => exact watchFetch_allowing b r here w wake outcome limit

theorem isReady_allowing (stage : Stage) :
    isReady r here (w.allowing b) stage = isReady r here w stage := by
  cases stage <;> rfl

/-- A look at a site comes to the same whether data may be missing or not. -/
theorem poll_allowing (stage : Stage) :
    poll r here stage (w.allowing b) = (poll r here stage w).map id (World.allowing b) := by
  unfold poll
  rw [isReady_allowing]
  cases ready : isReady r here w stage with
  | false => rfl
  | true =>
    cases stop : (if stage.isWatchful then (w.plan (·.unwatch here)).interruption? else none) with
    | some i =>
      simp only [if_true, World.allowing_plan, World.allowing_interruption?, stop,
        release_allowing]
      rfl
    | none =>
      simp only [if_true, World.allowing_plan, World.allowing_interruption?, stop, proceed_allowing]
      obtain ⟨p, w'⟩ := proceed r here (w.plan (·.unwatch here)) stage
      cases p with
      | waiting next => cases next <;> rfl
      | settled result => rfl

end Site

namespace Task

variable {parallel : Bool} (b : Bool) (w : World)

/-- Who can move does not depend on whether data may be missing. -/
theorem ready_allowing (t : Task) (here : Address) :
    ready parallel (w.allowing b) here t = ready parallel w here t :=
  ready_congr (fun r here => Site.isReady_allowing b r here w) t here

end Task

/-- Missing data is not allowed. -/
def World.IsStrict (w : World) : Prop := w.resolver.policy.allowMissing = false

theorem World.isStrict_iff {w : World} : w.IsStrict ↔ w.allowing false = w := by
  constructor
  · intro strict
    unfold allowing
    rw [← show _ = false from strict]
  · intro same
    rw [← same]
    rfl

namespace Task

variable {parallel : Bool}

/-- What a reference in a strict world comes to makes no difference if it is no failure. -/
theorem ofProgress_same {inSpread : Bool} {r : Reference} {p : Progress} {w : World}
    (strict : w.IsStrict) (sound : (ofProgress inSpread r p w).1.Sound) :
    (ofProgress inSpread r p w).2.IsStrict ∧ ofProgress inSpread r p (w.allowing true)
      = (ofProgress inSpread r p w).map id (World.allowing true) := by
  cases p with
  | waiting stage => exact ⟨strict, rfl⟩
  | settled result =>
    cases result with
    | ok v => exact ⟨strict, rfl⟩
    | error e =>
      have failed : ofProgress inSpread r (.settled (.error e)) w = (.failed e, w) := by
        simp [ofProgress, show w.resolver.policy.allowMissing = false from strict]
      rw [failed] at sound
      cases sound

/-- A way of moving tasks that mends no failure. -/
def MendsNothing (move : Mover) : Prop := ∀ here t w, (move here t w).1.Sound → t.Sound

/-- A way of moving tasks for which it makes no difference that missing data is allowed, as
long as nothing fails. -/
structure IsIndifferent (move : Mover) : Prop where
  mendsNothing : MendsNothing move
  same : ∀ here t w, w.IsStrict → (move here t w).1.Sound → (move here t w).2.IsStrict ∧
    move here t (w.allowing true) = (move here t w).map id (World.allowing true)

/-! ### What has failed stays failed -/

section Parts

variable {move : Mover} {outer : Address}

/-- Parts in which nothing has failed once one of them has moved. -/
theorem forall_sound_of_set {parts : List Task} {i : Nat} {t t' : Task} (found : parts[i]? = some t)
    (sound : ∀ p ∈ parts.set i t', p.Sound) (back : t'.Sound → t.Sound) : ∀ p ∈ parts, p.Sound := by
  have whole : (Task.join .list parts).Sound := Sound.of_set found (.join sound) back
  cases whole with
  | join sound => exact sound

/-- If nothing has failed after parts have moved, nothing had before. -/
theorem MendsNothing.covers (mends : MendsNothing move) :
    Covers move fun parts parts' => (∀ t ∈ parts', t.Sound) → ∀ t ∈ parts, t.Sound where
  refl _ sound := sound
  trans first next sound := first (next sound)
  set here w found sound := forall_sound_of_set found sound (mends here _ w)

theorem sound_of_set {parts : List Task} {i : Nat} {t t' : Task} (found : parts[i]? = some t)
    (sound : ∀ p ∈ parts.set i t', p.Sound) : t'.Sound :=
  sound t' (List.mem_set (List.getElem?_eq_some_iff.mp found).1 _)

/-- Nothing has failed after the first turn of a round in which nothing fails. -/
theorem sound_after_turn (mends : MendsNothing move) {turns again i : Nat} {parts : List Task}
    {t : Task} {w : World}
    (chosen : ((w.agenda.next? outer fun i => parts[i]?.any (!·.isOver)).bind fun i =>
      parts[i]?.map (i, ·)) = some (i, t))
    (sound : ∀ p ∈ (pollRound parallel move outer (turns + 1) again parts w).2.1, p.Sound) :
    ∀ p ∈ parts.set i (giveTurn parallel move (⟨true, i⟩ :: outer) t w).1, p.Sound := by
  rw [pollRound] at sound
  simp only [chosen] at sound
  generalize giveTurn parallel move (⟨true, i⟩ :: outer) t w = moved at sound ⊢
  obtain ⟨t', w'⟩ := moved
  dsimp only at sound ⊢
  generalize (if ⟨true, i⟩ :: outer ∈ w'.agenda.woken then again + 1 else again) = again' at sound
  split at sound
  · exact sound
  · split at sound
    · exact sound
    · exact mends.covers.pollRound turns again' _ _ sound

/-- Nothing has failed after the first of several rounds in which nothing fails. -/
theorem sound_after_round (mends : MendsNothing move) {rounds : Nat} {parts : List Task} {w : World}
    (sound : ∀ t ∈ (pollInTurns parallel move outer (rounds + 1) parts w).1, t.Sound) :
    ∀ t ∈ (pollRound parallel move outer (parts.countP (!·.isOver)) 0 parts
      (w.plan (·.attend outer))).2.1, t.Sound := by
  rw [pollInTurns] at sound
  generalize pollRound parallel move outer _ 0 parts (w.plan (·.attend outer)) = reached at sound ⊢
  obtain ⟨ended, parts', w'⟩ := reached
  cases ended with
  | false => exact sound
  | true =>
    dsimp only at sound ⊢
    split at sound
    · exact sound
    · exact mends.covers.pollInTurns rounds _ _ sound

end Parts

theorem pollWithin_mendsNothing (height : Nat) : MendsNothing (pollWithin parallel height) := by
  induction height with
  | zero => exact fun _ _ _ sound => sound
  | succ height ih =>
    intro here t w sound
    cases t with
    | leaf v => exact .leaf v
    | finished v => exact .finished v
    | failed e =>
      rw [pollWithin] at sound
      exact sound
    | site inSpread r stage => exact .site inSpread r stage
    | secret inner =>
      rw [pollWithin] at sound
      exact .secret (ih _ _ _ sound.of_inSecret)
    | join shape parts =>
      rw [pollWithin] at sound
      dsimp only at sound
      split at sound
      · cases sound
      · exact .join (ih.covers.pollParts _ _ sound.of_ofPolled)

/-! ### Without failures -/

section Parts

variable {move : Mover} {outer : Address}

/-- Parts that are looked at in order do the same in both worlds, as long as none of them fails. -/
theorem pollInOrder_same (indifferent : IsIndifferent move) (parts : List Task) :
    ∀ i w, w.IsStrict → (∀ t ∈ (pollInOrder parallel move outer i parts w).1, t.Sound) →
      (pollInOrder parallel move outer i parts w).2.IsStrict ∧
        pollInOrder parallel move outer i parts (w.allowing true)
          = (pollInOrder parallel move outer i parts w).map id (World.allowing true) := by
  induction parts with
  | nil => exact fun i w strict _ => ⟨strict, rfl⟩
  | cons t rest ih =>
    intro i w strict sound
    have first : (move (⟨false, i⟩ :: outer) t w).1.Sound := by
      rw [pollInOrder] at sound
      dsimp only at sound
      split at sound
      · exact sound _ List.mem_cons_self
      · exact sound _ List.mem_cons_self
    obtain ⟨strict', same⟩ := indifferent.same _ _ _ strict first
    rw [pollInOrder] at sound ⊢
    rw [pollInOrder, same]
    generalize move (⟨false, i⟩ :: outer) t w = moved at strict' sound ⊢
    obtain ⟨t', w'⟩ := moved
    dsimp only [Prod.map, id] at strict' sound ⊢
    split
    · rename_i goOn
      rw [if_pos goOn] at sound
      obtain ⟨strict'', same'⟩ := ih (i + 1) w' strict' fun p hp =>
        sound p (List.mem_cons_of_mem _ hp)
      refine ⟨strict'', ?_⟩
      rw [same']
      rfl
    · exact ⟨strict', rfl⟩

/-- A part that is given a turn does the same in both worlds, as long as it does not fail. -/
theorem giveTurn_same (indifferent : IsIndifferent move) {here : Address} {t : Task} {w : World}
    (strict : w.IsStrict) (sound : (giveTurn parallel move here t w).1.Sound) :
    (giveTurn parallel move here t w).2.IsStrict ∧ giveTurn parallel move here t (w.allowing true)
      = (giveTurn parallel move here t w).map id (World.allowing true) := by
  unfold giveTurn at sound ⊢
  dsimp only at sound ⊢
  have ready : t.isReady parallel ((w.allowing true).plan (·.call here)) here
      = t.isReady parallel (w.plan (·.call here)) here := by
    rw [World.allowing_plan, isReady, isReady, ready_allowing]
  rw [ready]
  split
  · rename_i can
    rw [if_pos can] at sound
    exact indifferent.same here t (w.plan (·.call here)) strict sound
  · exact ⟨strict, rfl⟩

/-- So do all parts in a round of turns, by induction on the turns that are left. -/
theorem pollRound_same (indifferent : IsIndifferent move) (turns : Nat) : ∀ again parts w,
    w.IsStrict → (∀ t ∈ (pollRound parallel move outer turns again parts w).2.1, t.Sound) →
      (pollRound parallel move outer turns again parts w).2.2.IsStrict ∧
        pollRound parallel move outer turns again parts (w.allowing true)
          = (pollRound parallel move outer turns again parts w).map id
              (Prod.map id (World.allowing true)) := by
  induction turns with
  | zero => exact fun again parts w strict _ => ⟨strict, rfl⟩
  | succ turns ih =>
    intro again parts w strict sound
    have after := fun i t chosen =>
      sound_after_turn (i := i) (t := t) indifferent.mendsNothing chosen sound
    rw [pollRound] at sound ⊢
    rw [pollRound, World.allowing_agenda]
    split
    · exact ⟨strict, rfl⟩
    · rename_i i t chosen
      have found := (chosen_eq_some chosen).2
      simp only [chosen] at sound
      obtain ⟨strict', same⟩ := giveTurn_same indifferent strict
        (sound_of_set found (after i t chosen))
      dsimp only
      rw [same]
      generalize giveTurn parallel move (⟨true, i⟩ :: outer) t w = moved at strict' sound ⊢
      obtain ⟨t', w'⟩ := moved
      -- Who is awake is the same, but the tests for it are about different worlds.
      have woken : (if ⟨true, i⟩ :: outer ∈ (w'.allowing true).agenda.woken then again + 1
          else again) = if ⟨true, i⟩ :: outer ∈ w'.agenda.woken then again + 1 else again := rfl
      simp only [Prod.map, id, woken] at strict' sound ⊢
      generalize (if ⟨true, i⟩ :: outer ∈ w'.agenda.woken then again + 1 else again) = again'
        at sound ⊢
      split
      · exact ⟨strict', rfl⟩
      · rename_i goOn
        rw [if_neg goOn] at sound
        split
        · exact ⟨strict', rfl⟩
        · rename_i goOn
          rw [if_neg goOn] at sound
          exact ih again' _ w' strict' sound

/-- So do they over all rounds. -/
theorem pollInTurns_same (indifferent : IsIndifferent move) (rounds : Nat) : ∀ parts w,
    w.IsStrict → (∀ t ∈ (pollInTurns parallel move outer rounds parts w).1, t.Sound) →
      (pollInTurns parallel move outer rounds parts w).2.IsStrict ∧
        pollInTurns parallel move outer rounds parts (w.allowing true)
          = (pollInTurns parallel move outer rounds parts w).map id (World.allowing true) := by
  induction rounds with
  | zero => exact fun parts w strict _ => ⟨strict, rfl⟩
  | succ rounds ih =>
    intro parts w strict sound
    have first := sound_after_round indifferent.mendsNothing sound
    obtain ⟨strict', same⟩ := pollRound_same indifferent _ 0 parts (w.plan (·.attend outer)) strict
      first
    rw [pollInTurns] at sound ⊢
    rw [pollInTurns, World.allowing_plan, same]
    generalize pollRound parallel move outer _ 0 parts (w.plan (·.attend outer)) = reached
      at sound strict' ⊢
    obtain ⟨ended, parts', w'⟩ := reached
    cases ended with
    | false => exact ⟨strict', rfl⟩
    | true =>
      dsimp only [Prod.map, id] at sound strict' ⊢
      split
      · exact ⟨strict', rfl⟩
      · rename_i goOn
        rw [if_neg goOn] at sound
        exact ih parts' w' strict' sound

theorem pollParts_same (indifferent : IsIndifferent move) {parts : List Task} {w : World}
    (strict : w.IsStrict) (sound : ∀ t ∈ (pollParts parallel move outer parts w).1, t.Sound) :
    (pollParts parallel move outer parts w).2.IsStrict ∧
      pollParts parallel move outer parts (w.allowing true)
        = (pollParts parallel move outer parts w).map id (World.allowing true) := by
  unfold pollParts at sound ⊢
  split
  · rename_i turns
    rw [if_pos turns] at sound
    exact pollInTurns_same indifferent _ _ _ strict sound
  · rename_i turns
    rw [if_neg turns] at sound
    exact pollInOrder_same indifferent _ _ _ strict sound

end Parts

theorem pollWithin_indifferent (height : Nat) : IsIndifferent (pollWithin parallel height) := by
  induction height with
  | zero => exact ⟨pollWithin_mendsNothing 0, fun _ _ _ strict _ => ⟨strict, rfl⟩⟩
  | succ height ih =>
    refine ⟨pollWithin_mendsNothing (height + 1), ?_⟩
    intro here t w strict sound
    cases t with
    | leaf v =>
      rw [pollWithin, pollWithin, World.allowing_interruption?]
      split <;> exact ⟨strict, rfl⟩
    | finished v =>
      rw [pollWithin, pollWithin]
      exact ⟨strict, rfl⟩
    | failed e =>
      rw [pollWithin, pollWithin]
      exact ⟨strict, rfl⟩
    | site inSpread r stage =>
      rw [pollWithin] at sound ⊢
      rw [pollWithin, Site.poll_allowing]
      have strict' : (Site.poll r here stage w).2.IsStrict := by
        have same := Site.poll_allowing false r here w stage
        rw [World.isStrict_iff.mp strict] at same
        rw [same]
        rfl
      exact ofProgress_same strict' sound
    | secret inner =>
      rw [pollWithin] at sound ⊢
      obtain ⟨strict', same⟩ := ih.same _ _ _ strict sound.of_inSecret
      rw [pollWithin, same]
      exact ⟨strict', rfl⟩
    | join shape parts =>
      rw [pollWithin] at sound ⊢
      dsimp only at sound ⊢
      split at sound
      · cases sound
      · rename_i calm
        obtain ⟨strict', same⟩ := pollParts_same ih strict sound.of_ofPolled
        rw [pollWithin, same]
        refine ⟨strict', ?_⟩
        simp only [Prod.map, id, calm]

theorem poll_indifferent (parallel : Bool) : IsIndifferent fun here t => poll parallel here t :=
  ⟨fun here t => pollWithin_mendsNothing t.height here t,
    fun here t => (pollWithin_indifferent t.height).same here t⟩

end Task

/-! ### Runs -/

namespace World

variable (b : Bool) (w : World)

theorem advanceTo_allowing (moment : Nat) :
    (w.allowing b).advanceTo moment = (w.advanceTo moment).allowing b := by
  rw [advanceTo, advanceTo, allowing_now]
  split <;> rfl

theorem strike_allowing : (w.allowing b).strike = w.strike.allowing b := by
  rw [strike, strike, allowing_context, allowing_now]
  split <;> rfl

end World

namespace Task

variable {parallel : Bool} {t t' : Task} {w w' : World}

theorem look_back (sound : (t.look parallel w).1.Sound) : t.Sound :=
  (poll_indifferent parallel).mendsNothing _ _ _ sound

/-- A look at a task does the same in both worlds, as long as the task does not fail. -/
theorem look_same (strict : w.IsStrict) (sound : (t.look parallel w).1.Sound) :
    (t.look parallel w).2.IsStrict ∧
      t.look parallel (w.allowing true) = (t.look parallel w).map id (World.allowing true) := by
  obtain ⟨strict', same⟩ := (poll_indifferent parallel).same []
    t (w.plan (·.rouse (t.ready parallel w []))) strict sound
  rw [look, look, ready_allowing, World.allowing_plan, same]
  dsimp only [Prod.map, id]
  split
  · exact ⟨strict', rfl⟩
  · rw [World.strike_allowing]
    refine ⟨?_, rfl⟩
    unfold World.strike
    split
    · exact strict'
    · exact strict'

theorem nextPoll?_allowing (b : Bool) :
    t.nextPoll? parallel (w.allowing b) = t.nextPoll? parallel w := by
  rw [nextPoll?, nextPoll?, isReady, isReady, ready_allowing]
  rfl

theorem advanceTo_isStrict (strict : w.IsStrict) (moment : Nat) :
    (w.advanceTo moment).IsStrict := by
  unfold World.advanceTo
  split
  · exact strict
  · exact strict

/-- Nothing has failed in a task that has come to a value. -/
theorem sound_of_result {u : Value} (result : t.result? = some (.ok u)) : t.Sound := by
  cases t with
  | finished v => exact .finished v
  | _ => cases result

/-- A run that comes to a value comes to the same where missing data is allowed. -/
theorem run_same (fuel : Nat) : ∀ (t : Task) (w : World) {u},
    (t.run parallel fuel w).1 = some (.ok u) →
      t.Sound ∧ (w.IsStrict → t.run parallel fuel (w.allowing true)
        = (t.run parallel fuel w).map id (World.allowing true)) := by
  induction fuel with
  | zero =>
    intro t w u ended
    have result : t.result? = some (.ok u) := ended
    have atEnd := isOver_of_result result
    rw [run, run, release_of_isOver atEnd, release_of_isOver atEnd]
    exact ⟨sound_of_result result, fun strict => rfl⟩
  | succ fuel ih =>
    intro t w u ended
    rw [run] at ended
    rw [run, run]
    cases result : t.result? with
    | some x =>
      rw [result] at ended
      cases ended
      exact ⟨sound_of_result result, fun strict => rfl⟩
    | none =>
      rw [result] at ended
      dsimp only at ended ⊢
      unfold step? at ended ⊢
      rw [nextPoll?_allowing]
      cases next : t.nextPoll? parallel w with
      | none =>
        rw [next] at ended
        cases ended
      | some moment =>
        rw [next] at ended
        rw [Option.map_some, Option.map_some, World.advanceTo_allowing]
        obtain ⟨sound, onward⟩ := ih _ _ ended
        refine ⟨look_back sound, fun strict => ?_⟩
        obtain ⟨strict', same⟩ := look_same (advanceTo_isStrict strict moment) sound
        rw [same]
        exact onward strict'

end Task

/-- As long as nothing fails, it makes no difference that missing data is allowed. -/
theorem World.runTask_lenient {w : World} {t : Task} {u : Value} (strict : w.IsStrict)
    (ended : (w.runTask t).1 = some (.ok u)) :
    (w.allowing true).runTask t = (w.runTask t).map id (World.allowing true) := by
  obtain ⟨-, same⟩ := Task.run_same (t.remaining + 2) t w ended
  have parallel : (w.allowing true).resolver.policy.isParallel = w.resolver.policy.isParallel := rfl
  rw [runTask, runTask, parallel, same strict]
  rfl

end LayeredConfig
