import LayeredConfig.Proofs.Resolution.Headway
import LayeredConfig.Proofs.Resolution.Motion

/-!
Looking at a task is a run of moves.

`Task.poll_moves` says that `Task.poll` does nothing but what `Task.Moves` allows, in
whatever order the turns go round, and that it leaves a tidy task tidy. So what moves
keep, polls keep.
-/

namespace LayeredConfig

namespace Task

variable {parallel : Bool}

/-- A way of moving tasks that does nothing but what `Moves` allows. -/
def IsFaithful (parallel : Bool) (move : Mover) : Prop :=
  ∀ here t w C, t.Tidy parallel → Balanced (C + t.sites parallel here) w →
    Moves parallel here t w (move here t w).1 (move here t w).2 ∧
      (move here t w).1.Tidy parallel

section Parts

variable {move : Mover} {here : Address} {C : Multiset Standing}

/-- A part that may move is moved, together with the task that it is a part of. -/
theorem IsFaithful.part (faithful : IsFaithful parallel move) {shape : Shape} {parts : List Task}
    {i : Nat} {t : Task} {w : World} (found : parts[i]? = some t)
    (calm : surfaced? (takeTurns parallel parts) parts = none)
    (turn : parallel = true ∨ ∀ p ∈ parts.take i, p.isFinished = true) (tidy : t.Tidy parallel)
    (balanced : Balanced (C + (Task.join shape parts).sites parallel here) w) :
    Moves parallel here (.join shape parts) w
        (.join shape (parts.set i (move (⟨takeTurns parallel parts, i⟩ :: here) t w).1))
        (move (⟨takeTurns parallel parts, i⟩ :: here) t w).2 ∧
      (move (⟨takeTurns parallel parts, i⟩ :: here) t w).1.Tidy parallel := by
  obtain ⟨F, census, -⟩ := sites_join_set found here
  rw [census] at balanced
  obtain ⟨moves, tidy'⟩ := faithful _ t w _ tidy balanced
  refine ⟨?_, tidy'⟩
  cases atEnd : t.isOver with
  | false => exact .part found calm turn atEnd moves tidy'
  | true =>
    obtain ⟨same, f, planned⟩ := moves.of_isOver atEnd
    obtain ⟨bound, here⟩ := List.getElem?_eq_some_iff.mp found
    rw [same, planned, ← here, List.set_getElem_self bound]
    exact .turn _ _ w f

/-- The books are still balanced once parts have moved. -/
theorem balanced_of_moves {t t' : Task} {w w' : World} (moves : Moves parallel here t w t' w')
    (balanced : Balanced (C + t.sites parallel here) w) :
    Balanced (C + t'.sites parallel here) w' :=
  moves.keeps_all balanced_keeps balanced

/-- No error has come up if the others may go on after a part. -/
theorem surfaced?_of_goOn {front rest : List Task} {t t' : Task}
    (calm : surfaced? false (front ++ t :: rest) = none)
    (goOn : (t'.isFinished || (parallel && !t'.isOver)) = true) :
    surfaced? false (front ++ t' :: rest) = none := by
  rw [surfaced?_eq_none_iff] at calm ⊢
  intro p hp
  rw [List.mem_append, List.mem_cons] at hp
  rcases hp with hp | rfl | hp
  · exact calm p (by simp [hp])
  · cases p with
    | failed e => simp [isOver, isFinished, error?] at goOn
    | _ => rfl
  · exact calm p (by simp [hp])

/-- It is the turn of the next part if the others may go on after a part. -/
theorem turn_of_goOn {front : List Task} {t : Task}
    (turn : parallel = true ∨ ∀ p ∈ front, p.isFinished = true)
    (goOn : (t.isFinished || (parallel && !t.isOver)) = true) :
    parallel = true ∨ ∀ p ∈ front ++ [t], p.isFinished = true := by
  cases side : parallel with
  | true => exact .inl rfl
  | false =>
    refine .inr ?_
    intro p hp
    rw [List.mem_append, List.mem_singleton] at hp
    rcases hp with hp | rfl
    · exact turn.resolve_left (by simp [side]) p hp
    · simpa [side] using goOn

/-- Moving parts in order is a run of moves of the whole: `front` are the parts that have
had their chance. -/
theorem pollInOrder_moves (front : List Task) (faithful : IsFaithful parallel move) {shape : Shape}
    {parts : List Task} {w : World} (few : takeTurns parallel (front ++ parts) = false)
    (calm : surfaced? false (front ++ parts) = none)
    (turn : parallel = true ∨ ∀ p ∈ front, p.isFinished = true)
    (tidy : ∀ t ∈ parts, t.Tidy parallel)
    (balanced : Balanced (C + (Task.join shape (front ++ parts)).sites parallel here) w) :
    Moves parallel here (.join shape (front ++ parts)) w
        (.join shape (front ++ (pollInOrder parallel move here front.length parts w).1))
        (pollInOrder parallel move here front.length parts w).2 ∧
      ∀ t ∈ (pollInOrder parallel move here front.length parts w).1, t.Tidy parallel := by
  induction parts generalizing front w with
  | nil => exact ⟨.rest _ _ _, by simp [pollInOrder]⟩
  | cons t rest ih =>
    have found : (front ++ t :: rest)[front.length]? = some t := by simp
    have turn' : parallel = true ∨
        ∀ p ∈ (front ++ t :: rest).take front.length, p.isFinished = true := by simpa using turn
    have step := faithful.part (C := C) found (by rwa [few]) turn' (tidy t List.mem_cons_self)
      balanced
    rw [few] at step
    rw [pollInOrder]
    dsimp only
    generalize move (⟨false, front.length⟩ :: here) t w = moved at step ⊢
    obtain ⟨t', w'⟩ := moved
    obtain ⟨moves, tidy'⟩ := step
    have place : (front ++ t :: rest).set front.length t' = front ++ t' :: rest := by simp
    rw [place] at moves
    split
    · rename_i goOn
      have onward : front ++ t' :: rest = (front ++ [t']) ++ rest := by simp
      have length : (front ++ [t']).length = front.length + 1 := by simp
      rw [onward] at moves
      have calm' : surfaced? false ((front ++ [t']) ++ rest) = none :=
        onward ▸ surfaced?_of_goOn calm goOn
      have few' : takeTurns parallel ((front ++ [t']) ++ rest) = false := by
        rw [← few, ← onward]
        simp [takeTurns]
      have next := ih (front ++ [t']) (w := w') few' calm' (turn_of_goOn turn goOn)
        (fun t ht => tidy t (List.mem_cons_of_mem _ ht)) (balanced_of_moves moves balanced)
      rw [length] at next
      refine ⟨moves.trans ?_, ?_⟩
      · simpa using next.1
      · intro p hp
        rcases List.mem_cons.mp hp with rfl | hp
        · exact tidy'
        · exact next.2 p hp
    · refine ⟨moves, ?_⟩
      intro p hp
      rcases List.mem_cons.mp hp with rfl | hp
      · exact tidy'
      · exact tidy p (List.mem_cons_of_mem _ hp)

/-- What a round, or several, of turns come to. -/
structure Rounds (parallel : Bool) (here : Address) (shape : Shape) (parts : List Task) (w : World)
    (parts' : List Task) (w' : World) : Prop where
  moves : Moves parallel here (.join shape parts) w (.join shape parts') w'
  tidy : ∀ t ∈ parts', t.Tidy parallel
  length : parts'.length = parts.length

namespace Rounds

variable {shape : Shape} {parts parts' parts'' : List Task} {w w' w'' : World}

theorem turn (tidy : ∀ t ∈ parts, t.Tidy parallel) (f : Agenda → Agenda) :
    Rounds parallel here shape parts w parts (w.plan f) :=
  ⟨.turn _ _ _ f, tidy, rfl⟩

theorem trans (first : Rounds parallel here shape parts w parts' w')
    (next : Rounds parallel here shape parts' w' parts'' w'') :
    Rounds parallel here shape parts w parts'' w'' :=
  ⟨first.moves.trans next.moves, next.tidy, next.length.trans first.length⟩

theorem plan (first : Rounds parallel here shape parts w parts' w') (f : Agenda → Agenda) :
    Rounds parallel here shape parts w parts' (w'.plan f) :=
  first.trans (turn first.tidy f)

theorem takeTurns_eq (rounds : Rounds parallel here shape parts w parts' w') :
    takeTurns parallel parts' = takeTurns parallel parts := by
  simp [takeTurns, rounds.length]

end Rounds

/-- A part moves in its turn, or has it in vain. -/
theorem giveTurn_rounds (faithful : IsFaithful parallel move) {shape : Shape} {parts : List Task}
    {i : Nat} {t : Task} {w : World} (found : parts[i]? = some t)
    (many : takeTurns parallel parts = true) (calm : surfaced? true parts = none)
    (tidy : ∀ t ∈ parts, t.Tidy parallel)
    (balanced : Balanced (C + (Task.join shape parts).sites parallel here) w) :
    Rounds parallel here shape parts w
      (parts.set i (giveTurn parallel move (⟨true, i⟩ :: here) t w).1)
      (giveTurn parallel move (⟨true, i⟩ :: here) t w).2 := by
  unfold giveTurn
  dsimp only
  split
  · have step := faithful.part (w := w.plan (·.call (⟨true, i⟩ :: here))) found (by rwa [many])
      (.inl (parallel_of_takeTurns many)) (tidy t (List.mem_of_getElem? found)) (balanced.plan _)
    rw [many] at step
    exact ⟨(Moves.turn _ _ w _).trans step.1, forall_mem_set tidy step.2, List.length_set⟩
  · obtain ⟨bound, there⟩ := List.getElem?_eq_some_iff.mp found
    rw [← there, List.set_getElem_self bound]
    exact (Rounds.turn tidy (·.call (⟨true, i⟩ :: here))).plan (·.settle (⟨true, i⟩ :: here))

/-- A round of turns. As long as no part has come to its end, no error has come up. -/
theorem pollRound_rounds (faithful : IsFaithful parallel move) {shape : Shape} (turns : Nat) :
    ∀ again parts w, takeTurns parallel parts = true → surfaced? true parts = none →
      (∀ t ∈ parts, t.Tidy parallel) →
      Balanced (C + (Task.join shape parts).sites parallel here) w →
      Rounds parallel here shape parts w (pollRound parallel move here turns again parts w).2.1
          (pollRound parallel move here turns again parts w).2.2 ∧
        ((pollRound parallel move here turns again parts w).1 = false →
          surfaced? true (pollRound parallel move here turns again parts w).2.1 = none) := by
  induction turns with
  | zero =>
    intro again parts w many calm tidy balanced
    exact ⟨.turn tidy (·.wake here), fun _ => calm⟩
  | succ turns ih =>
    intro again parts w many calm tidy balanced
    rw [pollRound]
    split
    · exact ⟨⟨.rest _ _ _, tidy, rfl⟩, fun _ => calm⟩
    · rename_i i t chosen
      have found := (chosen_eq_some chosen).2
      have turned := giveTurn_rounds faithful found many calm
        tidy balanced
      dsimp only
      generalize giveTurn parallel move (⟨true, i⟩ :: here) t w = moved at turned ⊢
      obtain ⟨t', w'⟩ := moved
      dsimp only at turned ⊢
      split
      · exact ⟨turned.plan (·.settle (⟨true, i⟩ :: here)), fun h => by cases h⟩
      · rename_i isOpen
        have calm' : surfaced? true (parts.set i t') = none :=
          surfaced?_set found (by simpa using isOpen) calm
        generalize (if ⟨true, i⟩ :: here ∈ w'.agenda.woken then again + 1 else again) = again'
        split
        · exact ⟨turned.plan (·.wake here), fun _ => calm'⟩
        · have next := ih again' (parts.set i t') w' (by rw [turned.takeTurns_eq, many]) calm'
            turned.tidy (balanced_of_moves turned.moves balanced)
          exact ⟨turned.trans next.1, next.2⟩

theorem pollInTurns_rounds (faithful : IsFaithful parallel move) {shape : Shape} (rounds : Nat) :
    ∀ parts w, takeTurns parallel parts = true → surfaced? true parts = none →
      (∀ t ∈ parts, t.Tidy parallel) →
      Balanced (C + (Task.join shape parts).sites parallel here) w →
      Rounds parallel here shape parts w (pollInTurns parallel move here rounds parts w).1
        (pollInTurns parallel move here rounds parts w).2 := by
  induction rounds with
  | zero =>
    intro parts w _ _ tidy _
    exact ⟨.rest _ _ _, tidy, rfl⟩
  | succ rounds ih =>
    intro parts w many calm tidy balanced
    have round := pollRound_rounds faithful (parts.countP (!·.isOver)) 0 parts
      (w.plan (·.attend here)) many calm tidy (balanced.plan _)
    have start : Rounds parallel here shape parts w parts (w.plan (·.attend here)) :=
      .turn tidy _
    rw [pollInTurns]
    generalize pollRound parallel move here _ 0 parts (w.plan (·.attend here)) = reached at round ⊢
    obtain ⟨ended, parts', w'⟩ := reached
    have so := start.trans round.1
    cases ended with
    | false => exact so
    | true =>
      dsimp only
      split
      · exact so
      · rename_i calm'
        exact so.trans (ih parts' w' (by rw [so.takeTurns_eq, many]) (by simpa using calm') so.tidy
          (balanced_of_moves so.moves balanced))

/-- Moving the parts of a task is a run of its moves. -/
theorem pollParts_rounds (faithful : IsFaithful parallel move) {shape : Shape} {parts : List Task}
    {w : World} (calm : surfaced? (takeTurns parallel parts) parts = none)
    (tidy : ∀ t ∈ parts, t.Tidy parallel)
    (balanced : Balanced (C + (Task.join shape parts).sites parallel here) w) :
    Rounds parallel here shape parts w (pollParts parallel move here parts w).1
      (pollParts parallel move here parts w).2 := by
  unfold pollParts
  cases turns : takeTurns parallel parts with
  | true =>
    rw [turns] at calm
    exact pollInTurns_rounds faithful _ parts w turns calm tidy balanced
  | false =>
    rw [turns] at calm
    obtain ⟨moves, tidy'⟩ := pollInOrder_moves [] faithful (by simpa using turns) calm
      (.inr (by simp)) tidy balanced
    exact ⟨moves, tidy', (covers_length move).pollInOrder 0 parts w⟩

end Parts

/-- What `pollWithin` does is a run of moves, and leaves a tidy task tidy. -/
theorem pollWithin_faithful (height : Nat) : IsFaithful parallel (pollWithin parallel height) := by
  induction height with
  | zero =>
    intro here t w C tidy _
    exact ⟨.rest _ _ _, tidy⟩
  | succ height ih =>
    intro here t w C tidy balanced
    cases tidy with
    | leaf v =>
      rw [pollWithin]
      split
      · rename_i i interrupted
        exact ⟨.stop interrupted, .failed _⟩
      · rename_i live
        exact ⟨.leaf live, .finished _⟩
    | finished v =>
      rw [pollWithin]
      exact ⟨.rest _ _ _, .finished v⟩
    | failed e => exact ⟨by rw [pollWithin]; exact .rest _ _ _, by rw [pollWithin]; exact .failed e⟩
    | site inSpread r stage =>
      have sane : Site.Sane r w stage := by
        rw [sites_site, add_comm, Multiset.singleton_add] at balanced
        cases stage with
        | building wake outcome =>
          exact (balanced.builder_atWork rfl).1
        | _ => trivial
      rw [pollWithin]
      exact ⟨.of_site (Site.poll_moves sane) inSpread, .ofProgress ..⟩
    | @secret inner isOpen tidy =>
      obtain ⟨moves, tidy'⟩ := ih here inner w C tidy (by simpa using balanced)
      rw [pollWithin]
      exact ⟨.secret moves tidy', tidy'.inSecret⟩
    | @join shape parts unfinished calm tidy =>
      have rounds := pollParts_rounds ih calm tidy balanced
      rw [pollWithin]
      dsimp only
      split
      · rename_i e found
        exact ⟨rounds.moves.trans (.fail found), .failed e⟩
      · rename_i calm'
        exact ⟨rounds.moves.trans (.close calm'), .ofPolled calm' rounds.tidy⟩

/-- A look at a task is a run of moves, and leaves a tidy task tidy. -/
theorem poll_moves {here : Address} {t : Task} {w : World} {C : Multiset Standing}
    (tidy : t.Tidy parallel) (balanced : Balanced (C + t.sites parallel here) w) :
    Moves parallel here t w (t.poll parallel here w).1 (t.poll parallel here w).2 ∧
      (t.poll parallel here w).1.Tidy parallel :=
  pollWithin_faithful t.height here t w C tidy balanced

end Task

end LayeredConfig
