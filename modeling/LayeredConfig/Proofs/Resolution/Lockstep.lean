import LayeredConfig.Proofs.Resolution.Masking

/-!
# Runs that differ in what secrets hide

Two tasks with the same mask are moved in lockstep: whatever happens in the world happens in
both runs (`Task.pollWithin_blind`). So two values that differ in nothing but scalars beneath
secrets are resolved with the same calls, warnings and moments, and both fail, or both come to
values that differ in nothing else either (`World.resolve_blind`).
-/

namespace LayeredConfig

/-- Two outcomes in the same world, between which nothing differs that `see` sees. -/
def MovedAlike {α β : Type} (see : α → β) (x x' : α × World) : Prop :=
  ∃ a a' w, x = (a, w) ∧ x' = (a', w) ∧ see a = see a'

namespace MovedAlike

variable {α β : Type} {see : α → β} {x x' x'' : α × World}

theorem symm (alike : MovedAlike see x x') : MovedAlike see x' x := by
  obtain ⟨a, a', w, here, there, same⟩ := alike
  exact ⟨a', a, w, there, here, same.symm⟩

theorem trans (alike : MovedAlike see x x') (alike' : MovedAlike see x' x'') :
    MovedAlike see x x'' := by
  obtain ⟨a, a', w, here, rfl, same⟩ := alike
  obtain ⟨b, a'', w', there, last, same'⟩ := alike'
  cases there
  exact ⟨a, a'', w, here, last, same.trans same'⟩

end MovedAlike

namespace Task

variable (parallel : Bool) {hidden : Bool}

/-- A way of moving tasks that does not see what secrets hide, nor what an error says. -/
def IsBlind (move : Mover) : Prop :=
  ∀ hidden here t t' w, t.mask hidden = t'.mask hidden →
    MovedAlike (mask hidden) (move here t w) (move here t' w)

/-- It is enough to compare a task with its mask. -/
theorem IsBlind.of_mask {move : Mover} (same : ∀ hidden here t w,
    MovedAlike (mask hidden) (move here (t.mask hidden) w) (move here t w)) : IsBlind move := by
  intro hidden here t t' w masked
  have other := same hidden here t' w
  rw [← masked] at other
  exact (same hidden here t w).symm.trans other

section Parts

variable {move : Mover} (outer : Address)

theorem pollInOrder_blind (blind : IsBlind move) (parts : List Task) : ∀ parts' i w,
    parts.map (mask hidden) = parts'.map (mask hidden) →
      MovedAlike (List.map (mask hidden)) (pollInOrder parallel move outer i parts w)
        (pollInOrder parallel move outer i parts' w) := by
  induction parts with
  | nil =>
    intro parts' i w same
    obtain rfl := List.map_eq_nil_iff.mp same.symm
    exact ⟨[], [], w, rfl, rfl, rfl⟩
  | cons t rest ih =>
    intro parts' i w same
    obtain ⟨t', rest', rfl, first, others⟩ := List.map_eq_cons_iff.mp same.symm
    obtain ⟨u, u', v, moved, moved', masked⟩ :=
      blind hidden (⟨false, i⟩ :: outer) t t' w first.symm
    rw [pollInOrder, pollInOrder, moved, moved']
    dsimp only
    rw [eq_of_mask_eq (isFinished_mask hidden) masked, eq_of_mask_eq (isOver_mask hidden) masked]
    split
    · obtain ⟨left, left', v', next, next', behind⟩ := ih rest' (i + 1) v others.symm
      rw [next, next']
      exact ⟨u :: left, u' :: left', v', rfl, rfl, by rw [List.map_cons, masked, behind]; rfl⟩
    · exact ⟨u :: rest, u' :: rest', v, rfl, rfl, by rw [List.map_cons, masked, ← others]; rfl⟩

theorem giveTurn_blind (blind : IsBlind move) (here : Address) {t t' : Task} (w : World)
    (same : t.mask hidden = t'.mask hidden) :
    MovedAlike (mask hidden) (giveTurn parallel move here t w)
      (giveTurn parallel move here t' w) := by
  unfold giveTurn
  dsimp only
  rw [eq_of_mask_eq (isReady_mask hidden parallel (w.plan (·.call here)) here) same]
  split
  · exact blind hidden here t t' _ same
  · exact ⟨t, t', _, rfl, rfl, same⟩

/-- A round of turns ends alike, and with the same answer. -/
theorem pollRound_blind (blind : IsBlind move) (turns : Nat) : ∀ again parts parts' w,
    parts.map (mask hidden) = parts'.map (mask hidden) →
      ∃ ended left left' v, pollRound parallel move outer turns again parts w = (ended, left, v) ∧
        pollRound parallel move outer turns again parts' w = (ended, left', v) ∧
        left.map (mask hidden) = left'.map (mask hidden) := by
  induction turns with
  | zero => exact fun again parts parts' w same => ⟨false, parts, parts', _, rfl, rfl, same⟩
  | succ turns ih =>
    intro again parts parts' w same
    -- Who has the next turn depends on who is open, and on the world.
    have isOpen : (fun i : Nat => parts[i]?.any (!·.isOver))
        = fun i => parts'[i]?.any (!·.isOver) := by
      funext i
      rw [← any_isOpen_mask hidden, same, any_isOpen_mask]
    rw [pollRound, pollRound, isOpen]
    cases next : w.agenda.next? outer fun i => parts'[i]?.any (!·.isOver) with
    | none => exact ⟨false, parts, parts', w, rfl, rfl, same⟩
    | some i =>
      have there : parts[i]?.map (mask hidden) = parts'[i]?.map (mask hidden) := by
        rw [← List.getElem?_map, same, List.getElem?_map]
      rw [Option.bind_some, Option.bind_some]
      cases found' : parts'[i]? with
      | none =>
        rw [found', Option.map_none, Option.map_eq_none_iff] at there
        rw [there]
        exact ⟨false, parts, parts', w, rfl, rfl, same⟩
      | some t' =>
        rw [found'] at there
        obtain ⟨t, found, first⟩ := Option.map_eq_some_iff.mp there
        obtain ⟨u, u', v, moved, moved', masked⟩ :=
          giveTurn_blind parallel blind (⟨true, i⟩ :: outer) w first
        have same' : (parts.set i u).map (mask hidden) = (parts'.set i u').map (mask hidden) := by
          rw [List.map_set, List.map_set, same, masked]
        rw [found]
        dsimp only [Option.map_some]
        rw [moved, moved']
        dsimp only
        rw [eq_of_mask_eq (isOver_mask hidden) masked]
        generalize (if ⟨true, i⟩ :: outer ∈ v.agenda.woken then again + 1 else again) = again'
        split
        · exact ⟨true, _, _, _, rfl, rfl, same'⟩
        · split
          · exact ⟨false, _, _, _, rfl, rfl, same'⟩
          · exact ih again' _ _ v same'

theorem isSome_surfaced?_blind {parts parts' : List Task}
    (same : parts.map (mask hidden) = parts'.map (mask hidden)) (inTurns : Bool) :
    (surfaced? inTurns parts).isSome = (surfaced? inTurns parts').isSome := by
  rw [← isSome_surfaced?_mask hidden, same, isSome_surfaced?_mask]

theorem pollInTurns_blind (blind : IsBlind move) (rounds : Nat) : ∀ parts parts' w,
    parts.map (mask hidden) = parts'.map (mask hidden) →
      MovedAlike (List.map (mask hidden)) (pollInTurns parallel move outer rounds parts w)
        (pollInTurns parallel move outer rounds parts' w) := by
  induction rounds with
  | zero => exact fun parts parts' w same => ⟨parts, parts', w, rfl, rfl, same⟩
  | succ rounds ih =>
    intro parts parts' w same
    obtain ⟨ended, left, left', v, round, round', masked⟩ := pollRound_blind parallel outer blind
      (parts'.countP (!·.isOver)) 0 parts parts' (w.plan (·.attend outer)) same
    rw [pollInTurns, pollInTurns, eq_of_mask_eq (countP_isOpen_mask hidden) same, round, round']
    cases ended with
    | false => exact ⟨left, left', v, rfl, rfl, masked⟩
    | true =>
      dsimp only
      rw [isSome_surfaced?_blind masked]
      split
      · exact ⟨left, left', v, rfl, rfl, masked⟩
      · exact ih left left' v masked

theorem pollParts_blind (blind : IsBlind move) {parts parts' : List Task} (w : World)
    (same : parts.map (mask hidden) = parts'.map (mask hidden)) :
    MovedAlike (List.map (mask hidden)) (pollParts parallel move outer parts w)
      (pollParts parallel move outer parts' w) := by
  unfold pollParts
  rw [eq_of_mask_eq (takeTurns_mask hidden parallel) same,
    eq_of_mask_eq (countP_isOpen_mask hidden) same]
  split
  · exact pollInTurns_blind parallel outer blind _ parts parts' w same
  · exact pollInOrder_blind parallel outer blind parts parts' 0 w same

end Parts

/-- Moving a task does not see what secrets hide. -/
theorem pollWithin_blind (height : Nat) :
    IsBlind (pollWithin parallel height) := by
  induction height with
  | zero => exact fun hidden here t t' w same => ⟨t, t', w, rfl, rfl, same⟩
  | succ height ih =>
    refine .of_mask fun hidden here t w => ?_
    cases t with
    | leaf v =>
      rw [mask, pollWithin, pollWithin]
      cases w.interruption? with
      | some i => exact ⟨_, _, w, rfl, rfl, rfl⟩
      | none => exact ⟨_, _, w, rfl, rfl, by simp [mask, Value.mask_mask]⟩
    | finished v =>
      rw [mask, pollWithin, pollWithin, ← mask]
      exact ⟨_, _, w, rfl, rfl, mask_mask _ hidden⟩
    | failed e =>
      rw [mask, pollWithin, pollWithin]
      exact ⟨_, _, w, rfl, rfl, rfl⟩
    | site inSpread r stage =>
      rw [mask]
      exact ⟨_, _, _, rfl, rfl, rfl⟩
    | secret inner =>
      obtain ⟨u, u', v, moved, moved', masked⟩ := ih true here _ _ w (inner.mask_mask true)
      rw [mask, pollWithin, pollWithin, moved, moved']
      exact ⟨_, _, v, rfl, rfl, by rw [inSecret_mask, masked, ← inSecret_mask]⟩
    | join shape parts =>
      -- The parts of both have the same masks after the move, so either an error comes up in
      -- both and they are dropped alike, or what is left of both is drawn together.
      obtain ⟨left, left', v, moved, moved', masked⟩ := pollParts_blind parallel here ih w
        (show (parts.map (mask hidden)).map (mask hidden) = parts.map (mask hidden) by
          rw [List.map_map]
          exact List.map_congr_left fun t _ => t.mask_mask hidden)
      rw [mask_join, pollWithin, pollWithin, moved, moved']
      have turns := eq_of_mask_eq (takeTurns_mask hidden parallel) masked
      have surfaced := isSome_surfaced?_blind masked (takeTurns parallel left')
      dsimp only
      rw [turns]
      cases found : surfaced? (takeTurns parallel left') left with
      | none =>
        rw [found, Option.isSome_none, eq_comm, Option.isSome_eq_false_iff,
          Option.isNone_iff_eq_none] at surfaced
        rw [surfaced]
        exact ⟨_, _, v, rfl, rfl, by rw [← ofPolled_mask, masked, ofPolled_mask]⟩
      | some e =>
        rw [found, Option.isSome_some, eq_comm] at surfaced
        obtain ⟨e', found'⟩ := Option.isSome_iff_exists.mp surfaced
        have joined : (join shape left).mask hidden = (join shape left').mask hidden := by
          rw [mask_join, masked, mask_join]
        have released := eq_of_mask_eq (fun t => release_mask hidden t parallel here) joined
        rw [found']
        dsimp only
        rw [released]
        exact ⟨_, _, _, rfl, rfl, rfl⟩

variable {t t' : Task} {w : World}

theorem look_blind (same : t.mask hidden = t'.mask hidden) (w : World) :
    MovedAlike (mask hidden) (t.look parallel w) (t'.look parallel w) := by
  have ready := eq_of_mask_eq (fun t => ready_mask hidden t parallel w []) same
  have height := eq_of_mask_eq (height_mask hidden) same
  obtain ⟨u, u', v, moved, moved', masked⟩ := pollWithin_blind parallel t'.height hidden [] t t'
    (w.plan (·.rouse (t'.ready parallel w []))) same
  rw [look, look, poll, poll, ready, height, moved, moved']
  dsimp only
  rw [eq_of_mask_eq (isOver_mask hidden) masked]
  exact ⟨u, u', _, rfl, rfl, masked⟩

theorem nextPoll?_blind (same : t.mask hidden = t'.mask hidden) (w : World) :
    t.nextPoll? parallel w = t'.nextPoll? parallel w := by
  rw [nextPoll?, nextPoll?, eq_of_mask_eq (isReady_mask hidden parallel w []) same,
    eq_of_mask_eq (moments_mask hidden) same]

/-- What is seen of a result: nothing of an error, and of a value what no secret hides. -/
def seen (hidden : Bool) (x : Except ResolveError Value) : Option Value :=
  x.toOption.map (Value.mask hidden)

theorem result?_blind (same : t.mask hidden = t'.mask hidden) :
    t.result?.map (seen hidden) = t'.result?.map (seen hidden) := by
  have one := result?_mask hidden t
  have other := result?_mask hidden t'
  rw [same] at one
  exact one.symm.trans other

/-- Two tasks that differ in what secrets hide run in lockstep. -/
theorem run_blind (fuel : Nat) : ∀ (t t' : Task) (w : World), t.mask hidden = t'.mask hidden →
    MovedAlike (Option.map (seen hidden)) (t.run parallel fuel w) (t'.run parallel fuel w) := by
  induction fuel with
  | zero =>
    intro t t' w same
    rw [run, run, eq_of_mask_eq (fun t => release_mask hidden t parallel []) same]
    exact ⟨_, _, _, rfl, rfl, result?_blind same⟩
  | succ fuel ih =>
    intro t t' w same
    have results := result?_blind same
    rw [run, run]
    cases result : t.result? with
    | some x =>
      rw [result] at results
      obtain ⟨x', result', same'⟩ := Option.map_eq_some_iff.mp results.symm
      rw [result']
      exact ⟨_, _, w, rfl, rfl, congrArg some same'.symm⟩
    | none =>
      rw [result, Option.map_none, eq_comm, Option.map_eq_none_iff] at results
      rw [results]
      dsimp only
      rw [step?, step?, nextPoll?_blind parallel same]
      cases t'.nextPoll? parallel w with
      | none =>
        rw [eq_of_mask_eq (fun t => release_mask hidden t parallel []) same]
        exact ⟨_, _, _, rfl, rfl, rfl⟩
      | some moment =>
        obtain ⟨u, u', v, moved, moved', masked⟩ :=
          look_blind parallel same (w.advanceTo moment)
        rw [Option.map_some, Option.map_some, moved, moved']
        exact ih u u' v masked

end Task

namespace World

theorem runTask_blind {hidden : Bool} {t t' : Task} (same : t.mask hidden = t'.mask hidden)
    (w : World) : MovedAlike (Option.map (Task.seen hidden)) (w.runTask t) (w.runTask t') := by
  obtain ⟨x, x', v, ran, ran', results⟩ :=
    Task.run_blind w.resolver.policy.isParallel (t'.remaining + 2) t t' w same
  rw [runTask, runTask, eq_of_mask_eq (Task.remaining_mask hidden) same, ran, ran']
  exact ⟨x, x', _, rfl, rfl, results⟩

/-- Values that differ in nothing but scalars beneath secrets are resolved in lockstep: the world
is the same afterwards, and both fail, or both come to values that differ in nothing else. -/
theorem resolve_blind {v v' : Value} (same : v.mask false = v'.mask false) (w : World) :
    MovedAlike (Option.map (Task.seen false)) (w.resolve v) (w.resolve v') :=
  runTask_blind (by rw [← Task.ofValue_mask, same, Task.ofValue_mask]) w

end World

end LayeredConfig
