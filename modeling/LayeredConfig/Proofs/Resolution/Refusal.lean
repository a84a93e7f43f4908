import LayeredConfig.Proofs.Resolution.FirstLook

/-!
Runs that are interrupted before they begin.

A task that nobody has looked at has only leaves and references that have not begun. If the
context is interrupted, whichever of them is looked at first fails, and since all that could
move has been roused, the first look brings this up to the top, also where parts take turns
(`Task.pollWithin_refuses`). So resolving a value comes to the interruption and leaves the
world as it was (`World.resolve_interrupted`).
-/

namespace LayeredConfig

namespace Task

variable {parallel : Bool}

/-! ### Tasks that have not begun -/

/-- Dropping parts that hold nothing gives nothing back. -/
theorem release_join_eq {shape : Shape} {parts : List Task}
    (same : ∀ t ∈ parts, ∀ here w, release parallel here t w = w) (here : Address) (w : World) :
    release parallel here (.join shape parts) w = w := by
  have drops : ∀ step, ∀ drop ∈ releases parallel here step parts, ∀ w, drop.2 w = w := by
    induction parts with
    | nil => simp [releases]
    | cons t rest ih =>
      intro step drop hdrop w
      rw [releases, List.mem_cons] at hdrop
      rcases hdrop with rfl | hdrop
      · exact same t List.mem_cons_self _ w
      · exact ih (fun t ht => same t (List.mem_cons_of_mem _ ht)) step.next drop hdrop w
  rw [release]
  have all : ∀ drop ∈ w.agenda.lastFirst
      (releases parallel here ⟨takeTurns parallel parts, 0⟩ parts), ∀ w, drop.2 w = w :=
    fun drop hdrop => drops _ drop ((lastFirst_perm w.agenda _).mem_iff.mp hdrop)
  generalize w.agenda.lastFirst _ = l at all
  induction l with
  | nil => rfl
  | cons drop rest ih =>
    rw [List.foldl_cons, all drop List.mem_cons_self]
    exact ih fun drop hdrop => all drop (List.mem_cons_of_mem _ hdrop)

theorem Unstarted.release_eq {t : Task} (unstarted : t.Unstarted) : ∀ here w,
    release parallel here t w = w := by
  induction t using induct with
  | leaf v => simp [release]
  | finished v => cases unstarted
  | failed e => cases unstarted
  | site inSpread r stage =>
    cases unstarted with
    | site => simp [release, Site.release]
  | secret inner ih =>
    cases unstarted with
    | secret unstarted => simpa [release] using ih unstarted
  | join shape parts ih =>
    cases unstarted with
    | join some unstarted => exact release_join_eq fun t ht => ih t ht (unstarted t ht)

/-! ### Refusing -/

/-- A task that has not begun, or has failed for an interruption. -/
def Refuses (i : Interruption) (t : Task) : Prop := t.Unstarted ∨ t = .failed (.interrupted i)

namespace Refuses

variable {i : Interruption} {t : Task} {parts : List Task}

theorem release_eq (refuses : t.Refuses i) (here : Address) (w : World) :
    release parallel here t w = w := by
  rcases refuses with unstarted | rfl
  · exact unstarted.release_eq here w
  · rw [release]

theorem isFinished (refuses : t.Refuses i) : t.isFinished = false := by
  rcases refuses with unstarted | rfl
  · have isOpen := unstarted.isOver
    simp only [isOver, Bool.or_eq_false_iff] at isOpen
    exact isOpen.1
  · rfl

theorem unstarted (refuses : t.Refuses i) (isOpen : t.isOver = false) : t.Unstarted := by
  rcases refuses with unstarted | rfl
  · exact unstarted
  · cases isOpen

/-- The only error that comes up is the interruption. -/
theorem eq_of_surfaced {inTurns : Bool} {e : ResolveError} (all : ∀ t ∈ parts, t.Refuses i)
    (found : surfaced? inTurns parts = some e) : e = .interrupted i := by
  obtain ⟨t, ht, failed⟩ := exists_of_surfaced found
  rw [error?_eq_some_iff] at failed
  rcases all t ht with unstarted | same
  · rw [failed] at unstarted
    cases unstarted
  · rw [failed] at same
    cases same
    rfl

/-- Where parts take turns and no error has come up, the first part has not begun. -/
theorem head_of_calm {t : Task} {rest : List Task} (refuses : t.Refuses i)
    (calm : surfaced? true (t :: rest) = none) : t.isOver = false := by
  have unfinished := refuses.isFinished
  simp only [surfaced?, if_true, List.find?_cons, unfinished, Bool.not_false,
    Option.bind_some] at calm
  simp [isOver, unfinished, calm]

end Refuses

/-- A way of moving tasks by which whatever has not begun fails for the interruption. -/
def IsRefusing (parallel : Bool) (i : Interruption) (height : Nat) (move : Mover) : Prop :=
  ∀ t : Task, t.height ≤ height → t.Unstarted →
    ComesTo parallel (some i) move t (.failed (.interrupted i))

section Parts

variable {move : Mover} {here : Address} {height : Nat} {i : Interruption} {parts : List Task}
  {w w' : World}

/-- In order, the first part fails, and no other is looked at. -/
theorem pollInOrder_refuses (refusing : IsRefusing parallel i height move) {t : Task}
    {rest : List Task} (low : t.height ≤ height) (unstarted : t.Unstarted)
    (awake : IsAwakeFrom parallel here 0 (t :: rest) w) (interrupted : w.interruption? = some i) :
    (pollInOrder parallel move here 0 (t :: rest) w).1 = .failed (.interrupted i) :: rest ∧
      PutsOffBelow here w (pollInOrder parallel move here 0 (t :: rest) w).2 := by
  obtain ⟨failed, put⟩ := refusing t low unstarted (⟨false, 0⟩ :: here) w awake.head interrupted
  rw [pollInOrder]
  generalize move (⟨false, 0⟩ :: here) t w = moved at failed put ⊢
  obtain ⟨t', w'⟩ := moved
  obtain rfl : t' = _ := failed
  have stops : ((Task.failed (.interrupted i)).isFinished ||
      (parallel && !(Task.failed (.interrupted i)).isOver)) = false := by
    simp [isFinished, isOver, error?]
  dsimp only
  rw [stops, if_neg Bool.false_ne_true]
  exact ⟨rfl, put.of_part⟩

/-- In turns, parts fail until the first one has. -/
theorem pollInTurns_refuses (refusing : IsRefusing parallel i height move) (rounds : Nat) :
    ∀ parts w, (∀ t ∈ parts, t.Refuses i) → (∀ t ∈ parts, t.height ≤ height) →
      AreAwake parallel here parts w → w.interruption? = some i → parts ≠ [] →
      surfaced? true parts = none → parts.countP (!·.isOver) ≤ rounds →
      (∀ t ∈ (pollInTurns parallel move here rounds parts w).1, t.Refuses i) ∧
        surfaced? true (pollInTurns parallel move here rounds parts w).1
          = some (.interrupted i) ∧
        (pollInTurns parallel move here rounds parts w).1.length = parts.length ∧
        PutsOffBelow here w (pollInTurns parallel move here rounds parts w).2 := by
  induction rounds with
  | zero =>
    intro parts w all _ _ _ some calm few
    cases parts with
    | nil => exact absurd rfl some
    | cons t rest =>
      have isOpen := (all t List.mem_cons_self).head_of_calm calm
      simp [isOpen] at few
  | succ rounds ih =>
    intro parts w all low awake interrupted some calm few
    cases parts with
    | nil => exact absurd rfl some
    | cons t rest =>
      have isOpen := (all t List.mem_cons_self).head_of_calm calm
      have attended := putsOffBelow_attend here w
      obtain ⟨turns, count⟩ : ∃ n, (t :: rest).countP (!·.isOver) = n + 1 :=
        ⟨rest.countP (!·.isOver), by simp [isOpen]⟩
      obtain ⟨k, p, w', there, isOpen', round, put, still⟩ := pollRound_comesTo
        (fun _ => .failed (.interrupted i)) (fun k p there isOpen => by
          have inside := List.mem_of_getElem? there
          have unstarted := (all p inside).unstarted isOpen
          exact ⟨unstarted, rfl, refusing p (low p inside) unstarted⟩)
        awake.attend interrupted List.getElem?_cons_zero isOpen turns 0
      have interrupted' := (attended.trans put).interruption?_eq.trans interrupted
      have all' : ∀ q ∈ (t :: rest).set k (.failed (.interrupted i)), q.Refuses i :=
        forall_mem_set all (.inr rfl)
      have low' : ∀ q ∈ (t :: rest).set k (.failed (.interrupted i)), q.height ≤ height :=
        forall_mem_set low ((height_pos p).trans_le (low p (List.mem_of_getElem? there)))
      rw [pollInTurns]
      simp only [count, round]
      cases surfaced : surfaced? true ((t :: rest).set k (.failed (.interrupted i))) with
      | some e =>
        obtain rfl := Refuses.eq_of_surfaced all' surfaced
        exact ⟨all', surfaced, List.length_set, attended.trans put⟩
      | none =>
        have fewer : ((t :: rest).set k (.failed (.interrupted i))).countP (!·.isOver)
            ≤ rounds := by
          have less := countP_isOpen_set (.failed (.interrupted i)) there isOpen' rfl
          omega
        obtain ⟨all'', surfaced', length, put'⟩ := ih _ w' all' low' still interrupted' (by simp)
          surfaced fewer
        exact ⟨all'', surfaced', length.trans List.length_set, (attended.trans put).trans put'⟩

/-- Moving the parts of a task that has not begun brings up the interruption. -/
theorem pollParts_refuses (refusing : IsRefusing parallel i height move) {shape : Shape}
    (unstarted : (Task.join shape parts).Unstarted) (low : ∀ t ∈ parts, t.height ≤ height)
    (awake : IsAwake parallel here (.join shape parts) w)
    (interrupted : w.interruption? = some i) :
    (∀ t ∈ (pollParts parallel move here parts w).1, t.Refuses i) ∧
      surfaced? (takeTurns parallel (pollParts parallel move here parts w).1)
        (pollParts parallel move here parts w).1 = some (.interrupted i) ∧
      PutsOffBelow here w (pollParts parallel move here parts w).2 := by
  cases unstarted with
  | join some unstarted =>
    unfold pollParts
    cases turns : takeTurns parallel parts with
    | true =>
      rw [if_pos rfl]
      have calm : surfaced? true parts = none := by
        have tidy : (Task.join shape parts).Tidy parallel := (Unstarted.join some unstarted).tidy
        cases tidy with
        | join unfinished calm tidy => rwa [turns] at calm
      obtain ⟨all, surfaced, length, put⟩ := pollInTurns_refuses refusing
        (parts.countP (!·.isOver)) parts w (fun t ht => .inl (unstarted t ht)) low
        (awake.areAwake turns) interrupted some calm le_rfl
      have many : takeTurns parallel
          (pollInTurns parallel move here (parts.countP (!·.isOver)) parts w).1 = true := by
        rw [← turns, takeTurns, takeTurns, length]
      exact ⟨all, by rw [many, surfaced], put⟩
    | false =>
      rw [if_neg Bool.false_ne_true]
      cases parts with
      | nil => exact absurd rfl some
      | cons t rest =>
        have awake' : IsAwakeFrom parallel here 0 (t :: rest) w := by
          rw [IsAwake, ready, turns] at awake
          exact awake
        obtain ⟨failed, put⟩ := pollInOrder_refuses refusing (low t List.mem_cons_self)
          (unstarted t List.mem_cons_self) awake' interrupted
        have few : takeTurns parallel (Task.failed (.interrupted i) :: rest) = false := by
          rw [← turns]
          simp [takeTurns]
        rw [failed, few]
        refine ⟨?_, rfl, put⟩
        intro p hp
        rcases List.mem_cons.mp hp with rfl | hp
        · exact .inr rfl
        · exact .inl (unstarted p (List.mem_cons_of_mem _ hp))

end Parts

/-- What has not begun fails at the first look, if the context is interrupted. -/
theorem pollWithin_refuses (parallel : Bool) (i : Interruption) (height : Nat) :
    IsRefusing parallel i height (pollWithin parallel height) := by
  induction height with
  | zero =>
    intro t low
    exact absurd (height_pos t) (by omega)
  | succ height ih =>
    intro t low unstarted here w awake interrupted
    cases unstarted with
    | leaf v =>
      rw [pollWithin, interrupted]
      exact ⟨rfl, .refl here w⟩
    | site inSpread r =>
      have stopped : Site.poll r here .fresh w
          = (Site.interrupted i, w.plan (·.unwatch here)) := by
        simp [Site.poll, Site.isReady, Stage.isWatchful, interrupted, Site.interrupted,
          Site.release]
      have failed : ∀ w, ofProgress inSpread r (Site.interrupted i) w
          = (.failed (.interrupted i), w) := by
        simp [ofProgress, Site.interrupted, ResolveError.isInterruption]
      rw [pollWithin, stopped]
      dsimp only
      rw [failed]
      exact ⟨rfl, (·.unwatch here), rfl, fun _ _ woken => woken⟩
    | @secret inner unstarted =>
      rw [Task.height] at low
      have awake' : IsAwake parallel here inner w := by simpa [IsAwake, ready] using awake
      obtain ⟨failed, put⟩ := ih inner (by omega) unstarted here w awake' interrupted
      rw [pollWithin]
      dsimp only
      rw [failed]
      exact ⟨rfl, put⟩
    | @join shape parts some unstarted =>
      have low' := height_le_of_join low
      obtain ⟨all, surfaced, put⟩ := pollParts_refuses ih (.join some unstarted) low' awake
        interrupted
      rw [pollWithin]
      dsimp only
      rw [surfaced]
      refine ⟨rfl, ?_⟩
      rw [release_join_eq fun t ht => (all t ht).release_eq]
      exact put

end Task

namespace World

/-- Resolving a value in an interrupted context comes to the interruption, and does nothing. -/
theorem resolve_interrupted (w : World) (v : Value) {i : Interruption}
    (interrupted : w.interruption? = some i) :
    w.resolve v = (some (.error (.interrupted i)), { w with agenda := {} }) :=
  runTask_comesTo (.ofValue v) rfl
    (interrupted ▸ Task.pollWithin_refuses _ i _ (.ofValue v) le_rfl (.ofValue v))

end World

end LayeredConfig
