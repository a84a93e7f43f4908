import LayeredConfig.Proofs.Resolution.Start

/-!
What comes to its end at the first look.

All that can move has been roused when a task is looked at. So if each part would come to its
end as soon as it is looked at, each part that has a turn does (`Task.pollRound_comesTo`), and a
run of which this is true of the whole task is over after one look (`World.runTask_comesTo`).
-/

namespace LayeredConfig

namespace Task

variable {parallel : Bool}

/-- A task that has not begun can move. -/
theorem Unstarted.ready_ne_nil {t : Task} (unstarted : t.Unstarted) : ∀ (w : World) here,
    ready parallel w here t ≠ [] := by
  induction t using induct with
  | leaf v => simp [ready]
  | finished v => cases unstarted
  | failed e => cases unstarted
  | site inSpread r stage =>
    cases unstarted with
    | site => simp [ready, Site.isReady]
  | secret inner ih =>
    cases unstarted with
    | secret unstarted => simpa [ready] using ih unstarted
  | join shape parts ih =>
    cases unstarted with
    | join some unstarted =>
      intro w here
      cases parts with
      | nil => exact absurd rfl some
      | cons t rest =>
        have first := ih t List.mem_cons_self (unstarted t List.mem_cons_self) w
        simp [ready, readyParts, first]

/-- A step above an address within a part leads to the part, or goes on from there. -/
theorem inTurns_eq_false_of_part {here outer a : Address} {s : Step} {i : Nat}
    (below : ⟨false, i⟩ :: here <:+ a) (within : here <:+ outer) (around : s :: outer <:+ a)
    (inside : ⟨false, i⟩ :: here <:+ outer → s.inTurns = false) : s.inTurns = false := by
  by_cases same : here = outer
  · subst same
    rw [step_eq_of_suffix around below]
  · have deeper := lt_of_le_of_ne within.length_le fun length => same (within.eq_of_length length)
    exact inside (List.suffix_of_suffix_length_le below ((List.suffix_cons s outer).trans around)
      deeper)

/-- One after another, nobody takes turns. -/
theorem inTurns_eq_false_of_mem_ready {t : Task} {w : World} {s : Step} :
    ∀ {here a outer : Address}, a ∈ ready false w here t → here <:+ outer → s :: outer <:+ a →
      s.inTurns = false := by
  have apart : ∀ {here outer : Address}, here <:+ outer → ¬ s :: outer <:+ here := by
    intro here outer within around
    have length := within.length_le
    have length' := around.length_le
    rw [List.length_cons] at length'
    omega
  induction t using induct with
  | leaf v =>
    intro here a outer ha within around
    rw [ready, List.mem_singleton] at ha
    exact absurd (ha ▸ around) (apart within)
  | finished v => simp [ready]
  | failed e => simp [ready]
  | site inSpread r stage =>
    intro here a outer ha within around
    rw [ready] at ha
    split at ha
    · rw [List.mem_singleton] at ha
      exact absurd (ha ▸ around) (apart within)
    · cases ha
  | secret inner ih =>
    intro here a outer ha
    rw [ready] at ha
    exact ih ha
  | join shape parts ih =>
    intro here a outer ha within around
    rw [ready] at ha
    obtain ⟨i, t, found, ha⟩ := part_of_mem_readyParts ha
    exact inTurns_eq_false_of_part (suffix_of_mem_ready ha) within around fun deeper =>
      ih t (List.mem_of_getElem? found) ha deeper around

/-- Wherever everything is awake, and the run is interrupted or not, a way of moving tasks takes a
task to another one, and puts off nobody else. -/
def ComesTo (parallel : Bool) (x : Option Interruption) (move : Mover) (t t' : Task) : Prop :=
  ∀ here w, IsAwake parallel here t w → w.interruption? = x →
    (move here t w).1 = t' ∧ PutsOffBelow here w (move here t w).2

section Parts

variable {move : Mover} {here : Address} {x : Option Interruption} {parts rest : List Task}
  {t t' : Task} {w w' : World}

/-- A part that puts off nobody but its own leaves those behind it awake. One after another they
cannot move yet, but then there are no turns to wait for. -/
theorem IsAwakeFrom.next {i : Nat} (awake : IsAwakeFrom parallel here i (t :: rest) w)
    (put : PutsOffBelow (⟨false, i⟩ :: here) w w') :
    IsAwakeFrom parallel here (i + 1) rest w' := by
  cases side : parallel with
  | true =>
    subst side
    exact awake.tail rfl put
  | false =>
    intro a ha s outer inTurns within around
    obtain ⟨k, p, -, ha⟩ := part_of_mem_readyParts ha
    have alone := inTurns_eq_false_of_part (suffix_of_mem_ready ha) within around fun deeper =>
      inTurns_eq_false_of_mem_ready ha deeper around
    rw [alone] at inTurns
    cases inTurns

/-- The others stay awake while one part comes to its end. -/
theorem AreAwake.set {k : Nat} (awake : AreAwake parallel here parts w)
    (atEnd : t.isOver = true) (put : PutsOffBelow (⟨true, k⟩ :: here) w w') :
    AreAwake parallel here (parts.set k t) w' := by
  obtain ⟨f, rfl, keeps⟩ := put
  intro m p there can
  rw [ready_plan] at can
  have apart : k ≠ m := by
    rintro rfl
    have bound : k < parts.length := by
      simpa using (List.getElem?_eq_some_iff.mp there).1
    rw [List.getElem?_set_self bound] at there
    cases there
    exact can (ready_of_isOver atEnd _ _)
  rw [List.getElem?_set_ne apart] at there
  obtain ⟨woken, within⟩ := awake m p there can
  have elsewhere : ∀ b, ⟨true, m⟩ :: here <:+ b → ¬ ⟨true, k⟩ :: here <:+ b :=
    fun b below below' => apart (congrArg Step.index (step_eq_of_suffix below' below))
  exact ⟨keeps _ (elsewhere _ List.suffix_rfl) woken,
    within.plan fun b below _ => keeps b (elsewhere b below)⟩

/-- Who looks at the parts of a value leaves them awake. -/
theorem AreAwake.attend (awake : AreAwake parallel here parts w) :
    AreAwake parallel here parts (w.plan (·.attend here)) := by
  intro k p there can
  rw [ready_plan] at can
  obtain ⟨woken, within⟩ := awake k p there can
  exact ⟨woken, within.plan fun b _ _ woken => woken⟩

theorem putsOffBelow_attend (here : Address) (w : World) :
    PutsOffBelow here w (w.plan (·.attend here)) :=
  ⟨(·.attend here), rfl, fun _ _ woken => woken⟩

/-- A part that has not begun comes to in its turn what it comes to when it is looked at. -/
theorem giveTurn_comesTo (comes : ComesTo parallel x move t t') (unstarted : t.Unstarted)
    (awake : IsAwake parallel here t w) (same : w.interruption? = x) :
    (giveTurn parallel move here t w).1 = t' ∧
      PutsOffBelow here w (giveTurn parallel move here t w).2 := by
  have can : t.isReady parallel (w.plan (·.call here)) here = true :=
    isReady_iff.mpr (unstarted.ready_ne_nil _ here)
  have awake' : IsAwake parallel here t (w.plan (·.call here)) :=
    awake.plan fun b _ apart woken => Agenda.mem_woken_call woken apart
  obtain ⟨came, put⟩ := comes here (w.plan (·.call here)) awake' same
  have called : PutsOffBelow here w (w.plan (·.call here)) := by
    refine ⟨(·.call here), rfl, ?_⟩
    intro b apart woken
    refine Agenda.mem_woken_call woken ?_
    rintro rfl
    exact apart List.suffix_rfl
  rw [giveTurn, if_pos can]
  exact ⟨came, called.trans put⟩

/-- If every open part has not begun and would come to an end, a round of turns ends with the
first turn, in which one of them does. -/
theorem pollRound_comesTo (ends : Nat → Task)
    (comes : ∀ k p, parts[k]? = some p → p.isOver = false →
      p.Unstarted ∧ (ends k).isOver = true ∧ ComesTo parallel x move p (ends k))
    (awake : AreAwake parallel here parts w) (same : w.interruption? = x) {j : Nat}
    (found : parts[j]? = some t) (isOpen : t.isOver = false) (turns again : Nat) :
    ∃ k p w', parts[k]? = some p ∧ p.isOver = false ∧
      pollRound parallel move here (turns + 1) again parts w
        = (true, parts.set k (ends k), w') ∧
      PutsOffBelow here w w' ∧ AreAwake parallel here (parts.set k (ends k)) w' := by
  -- Whoever is open can move and is awake, so somebody has the next turn.
  obtain ⟨woken, -⟩ := awake j t found ((comes j t found isOpen).1.ready_ne_nil _ _)
  obtain ⟨k, p, chosen, there, isOpen', -⟩ := exists_chosen woken found isOpen
  obtain ⟨unstarted, atEnd, comes⟩ := comes k p there isOpen'
  obtain ⟨came, put⟩ := giveTurn_comesTo comes unstarted
    (awake k p there (unstarted.ready_ne_nil _ _)).2 same
  rw [pollRound, chosen]
  dsimp only
  generalize giveTurn parallel move (⟨true, k⟩ :: here) p w = moved at came put ⊢
  obtain ⟨p', w'⟩ := moved
  obtain rfl : p' = _ := came
  have settled : PutsOffBelow (⟨true, k⟩ :: here) w (w'.plan (·.settle (⟨true, k⟩ :: here))) :=
    put.trans ⟨(·.settle (⟨true, k⟩ :: here)), rfl, fun b apart woken =>
      Agenda.mem_woken_settle.mpr ⟨woken, apart⟩⟩
  exact ⟨k, p, _, there, isOpen', by simp [atEnd], settled.of_part, awake.set atEnd settled⟩

end Parts

end Task

/-- A run is over after one look if its task comes to its end in it. Nothing but turns changes in
the world. -/
theorem World.runTask_comesTo {w : World} {t t' : Task} {result : Except ResolveError Value}
    (unstarted : t.Unstarted) (ends : t'.result? = some result)
    (comes : Task.ComesTo w.resolver.policy.isParallel w.interruption?
      (Task.pollWithin w.resolver.policy.isParallel t.height) t t') :
    w.runTask t = (some result, { w with agenda := {} }) := by
  have can : t.isReady w.resolver.policy.isParallel w [] = true :=
    Task.isReady_iff.mpr (unstarted.ready_ne_nil w [])
  have awake := Task.isAwake_rouse w.resolver.policy.isParallel t [] w
  obtain ⟨came, f, planned, -⟩ := comes [] _ awake rfl
  have step : t.step? w.resolver.policy.isParallel w
      = some (t', (w.plan (·.rouse (t.ready w.resolver.policy.isParallel w []))).plan f) := by
    have now : w.advanceTo w.now = w := by simp [advanceTo]
    rw [Task.step?, Task.nextPoll?, can, if_pos rfl, Option.map_some, now, Task.look, Task.poll]
    dsimp only
    rw [came, planned, if_pos (Task.isOver_of_result ends)]
  rw [runTask, Task.run, Task.result?_of_isOpen unstarted.isOver, step]
  dsimp only
  cases t.remaining + 1 with
  | zero => simp [Task.run, ends, Task.release_of_isOver (Task.isOver_of_result ends), plan]
  | succ fuel => simp [Task.run, ends, plan]

end LayeredConfig
