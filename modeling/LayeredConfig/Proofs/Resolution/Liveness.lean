import LayeredConfig.Proofs.Resolution.Turns

/-!
References never wait only for each other.

If nothing in a task can move, then some provider is being built or some fetch is under
way, and time alone will lead on (`Balanced.exists_underway`). Whoever waits in a line waits
for the one in front, who is at work or can go to work; whoever has queued for a permit
waits for one that a fetch holds. One after another, this needs that nobody behind the
part at work holds anything yet, which is what `Task.Orderly` says.
-/

namespace LayeredConfig

namespace Task

variable {parallel : Bool}

/-! ### One part after another -/

/-- No reference of a task has begun to move. -/
def Untouched (parallel : Bool) (t : Task) : Prop :=
  ∀ here, ∀ s ∈ t.sites parallel here, s.stage = .fresh

/-- One after another, nothing has happened behind a part that has not finished. -/
inductive Orderly (parallel : Bool) : Task → Prop where
  | leaf (v : Value) : Orderly parallel (.leaf v)
  | finished (v : Option Value) : Orderly parallel (.finished v)
  | failed (e : ResolveError) : Orderly parallel (.failed e)
  | site (inSpread : Bool) (r : Reference) (stage : Stage) :
      Orderly parallel (.site inSpread r stage)
  | secret {inner : Task} (orderly : Orderly parallel inner) : Orderly parallel (.secret inner)
  | join {shape : Shape} {parts : List Task} (orderly : ∀ t ∈ parts, Orderly parallel t)
      (behind : parallel = true ∨
        parts.Pairwise fun t t' => t.isFinished = false → t'.Untouched parallel) :
      Orderly parallel (.join shape parts)

/-- The order is kept. -/
theorem Moves.orderly {here : Address} {t t' : Task} {w w' : World}
    (moves : Moves parallel here t w t' w') (orderly : t.Orderly parallel) :
    t'.Orderly parallel := by
  refine moves.preserves .site .finished .failed ⟨?_, .secret⟩ ?_ orderly
  · intro whole
    cases whole with
    | secret orderly => exact orderly
  · intro here shape parts i t t' w w' found turn isOpen moves whole within
    cases whole with
    | join orderly behind =>
      refine .join ?_ ?_
      · exact forall_mem_set orderly (within (orderly t (List.mem_of_getElem? found)))
      · rcases turn with side | front
        · exact .inl side
        apply behind.imp_right
        intro behind
        obtain ⟨bound, there⟩ := List.getElem?_eq_some_iff.mp found
        rw [← List.take_append_drop i parts, List.drop_eq_getElem_cons bound, there,
          List.pairwise_append, List.pairwise_cons] at behind
        obtain ⟨before, ⟨after, rest⟩, across⟩ := behind
        have unfinished : t.isFinished = false := by
          simp only [isOver, Bool.or_eq_false_iff] at isOpen
          exact isOpen.1
        rw [List.set_eq_take_append_cons_drop, if_pos bound, List.pairwise_append,
          List.pairwise_cons]
        refine ⟨before, ⟨fun p hp _ => after p hp unfinished, rest⟩, ?_⟩
        intro p hp q _ open'
        rw [front p hp] at open'
        cases open'

/-! ### Who stands where when nothing can move -/

/-- Where nothing in a task can move, every reference has not begun or cannot move. -/
theorem isReady_of_ready_eq_nil {w : World} {t : Task} (orderly : t.Orderly parallel) :
    ∀ {here : Address}, ready parallel w here t = [] → ∀ s ∈ t.sites parallel here,
      s.stage = .fresh ∨ Site.isReady s.reference s.address w s.stage = false := by
  induction t using induct with
  | leaf v => simp
  | finished v => simp
  | failed e => simp
  | site inSpread r stage =>
    intro here waits s hs
    rw [sites_site, Multiset.mem_singleton] at hs
    subst hs
    exact .inr (by simpa [ready] using waits)
  | secret inner ih =>
    cases orderly with
    | secret orderly => simpa [ready] using @ih orderly
  | join shape parts ih =>
    cases orderly with
    | join orderly behind =>
      intro here waits s hs
      rw [sites_join] at hs
      rw [ready] at waits
      generalize (⟨takeTurns parallel parts, 0⟩ : Step) = step at hs waits
      induction parts generalizing step with
      | nil => simp at hs
      | cons t rest inner =>
        rw [readyParts, List.append_eq_nil_iff] at waits
        rw [sitesOf_cons, Multiset.mem_add] at hs
        rcases hs with hs | hs
        · exact ih t List.mem_cons_self (orderly t List.mem_cons_self) waits.1 s hs
        have behind' := behind.imp_right fun behind => (List.pairwise_cons.mp behind).2
        have below := waits.2
        split at below
        · exact inner (fun t ht => ih t (List.mem_cons_of_mem _ ht))
            (fun t ht => orderly t (List.mem_cons_of_mem _ ht)) behind' step.next hs below
        · rename_i stops
          -- One after another, with this part unfinished: the others have not begun.
          simp only [Bool.or_eq_true, not_or, Bool.not_eq_true] at stops
          have untouched := (List.pairwise_cons.mp (behind.resolve_left (by simp [stops.1]))).1
          obtain ⟨i, p, found, within⟩ := part_of_mem_sitesOf hs
          exact .inl (untouched p (List.mem_of_getElem? found) stops.2 _ s within)

/-- A tidy task that is not over, and in which nothing can move, has a reference that has
begun. -/
theorem exists_begun {w : World} {t : Task} (tidy : t.Tidy parallel) (isOpen : t.isOver = false) :
    ∀ {here : Address}, ready parallel w here t = [] →
      ∃ s ∈ t.sites parallel here, s.stage ≠ .fresh := by
  induction t using induct with
  | leaf v => simp [ready]
  | finished v => cases isOpen
  | failed e => cases isOpen
  | site inSpread r stage =>
    intro here waits
    refine ⟨⟨here, r, stage⟩, by simp, ?_⟩
    rintro rfl
    simp [ready, Site.isReady] at waits
  | secret inner ih =>
    cases tidy with
    | secret isOpen tidy => simpa [ready] using @ih tidy isOpen
  | join shape parts ih =>
    obtain ⟨front, p, back, rfl, finished, isOpen'⟩ := tidy.exists_open
    have inside : p ∈ front ++ p :: back := by simp
    have tidy' : p.Tidy parallel := by
      cases tidy with
      | join unfinished calm tidy => exact tidy p inside
    intro here waits
    rw [sites_join]
    rw [ready] at waits
    generalize (⟨takeTurns parallel (front ++ p :: back), 0⟩ : Step) = step at waits ⊢
    have begun := @ih p inside tidy' isOpen'
    clear ih tidy isOpen inside
    induction front generalizing step with
    | nil =>
      rw [List.nil_append, readyParts, List.append_eq_nil_iff] at waits
      obtain ⟨s, hs, touched⟩ := begun waits.1
      exact ⟨s, by simp [hs], touched⟩
    | cons q front inner =>
      rw [List.cons_append, readyParts, List.append_eq_nil_iff,
        if_pos (by simp [finished q List.mem_cons_self])] at waits
      obtain ⟨s, hs, touched⟩ := inner (fun q hq => finished q (List.mem_cons_of_mem _ hq))
        step.next waits.2
      exact ⟨s, by simp [hs], touched⟩

end Task

/-! ### No deadlock -/

/-- Whether a provider is being built, or a fetch is under way. -/
def Stage.isUnderway : Stage → Bool
  | .building _ _ => true
  | .fetching _ _ _ => true
  | _ => false

section Deadlock

variable {S : Multiset Standing} {w : World}

/-- Nobody queues for a permit while no fetch is under way, or else somebody can move. -/
theorem Balanced.not_queued (balanced : Balanced S w)
    (waits : ∀ s ∈ S, s.stage = .fresh ∨ Site.isReady s.reference s.address w s.stage = false)
    (idle : ∀ s ∈ S, s.stage.isUnderway = false) : ∀ s ∈ S, s.stage.isQueued = false := by
  have nobody : underwayCount S = 0 := by
    apply Multiset.countP_eq_zero.mpr
    intro s hs fetching
    have still := idle s hs
    cases h : s.stage <;> simp_all [Stage.isFetching, Stage.isUnderway]
  have permits := balanced.permits
  have some : 1 ≤ w.resolver.policy.permits := Nat.le_max_right _ _
  have free : 0 < w.resolver.free := by omega
  intro s hs
  apply Bool.eq_false_iff.mpr
  intro inQueue
  cases queue : w.resolver.queue with
  | nil =>
    have empty := balanced.queue
    rw [queue] at empty
    have here : s.address ∈ queued S :=
      Multiset.mem_map_of_mem _ (Multiset.mem_filter.mpr ⟨hs, inQueue⟩)
    rw [← empty] at here
    exact absurd here (by simp)
  | cons a rest =>
    have here : a ∈ queued S := by
      rw [← balanced.queue, queue]
      simp
    obtain ⟨q, hq, rfl⟩ := Multiset.mem_map.mp here
    obtain ⟨hq, inQueue⟩ := Multiset.mem_filter.mp hq
    have next : w.resolver.isNext q.address = true := by
      obtain ⟨n, hn⟩ := Nat.exists_eq_succ_of_ne_zero free.ne'
      simp [Resolver.isNext, queue, hn]
    have wait := waits q hq
    cases h : q.stage <;> simp_all [Stage.isQueued, Site.isReady]

/-- If somebody has begun and nobody can move, then a provider is being built or a fetch is
under way: nobody waits for nothing. -/
theorem Balanced.exists_underway (balanced : Balanced S w)
    (waits : ∀ s ∈ S, s.stage = .fresh ∨ Site.isReady s.reference s.address w s.stage = false)
    (begun : ∃ s ∈ S, s.stage ≠ .fresh) : ∃ s ∈ S, s.stage.isUnderway = true := by
  by_contra none
  have idle : ∀ s ∈ S, s.stage.isUnderway = false := fun s hs =>
    Bool.eq_false_iff.mpr fun h => none ⟨s, hs, h⟩
  have notQueued := balanced.not_queued waits idle
  obtain ⟨s, hs, begun⟩ := begun
  have wait := (waits s hs).resolve_left begun
  obtain ⟨a, r, stage⟩ := s
  cases stage with
  | fresh => exact begun rfl
  | building wake outcome => cases idle _ hs
  | fetching wake outcome limit => cases idle _ hs
  | queued p => cases notQueued _ hs
  | awaitingProvider =>
    have seat : ⟨r.alias, a, false⟩ ∈ S.filterMap Standing.builderSeat :=
      (Multiset.mem_filterMap _ _).mpr ⟨_, hs, rfl⟩
    have unbuilt : w.registry.isUnbuilt r.alias = true := by
      simp only [Site.isReady, Bool.or_eq_false_iff, Bool.not_eq_eq_eq_not, Bool.not_false] at wait
      exact wait.2.1
    obtain ⟨seat', hseat, -, first⟩ := balanced.builders.exists_first seat unbuilt
    obtain ⟨⟨b, r', stage'⟩, hq, found⟩ := (Multiset.mem_filterMap _ _).mp hseat
    cases stage' with
    | awaitingProvider =>
      cases found
      simpa [Site.isReady, first] using waits _ hq
    | building wake outcome => cases idle _ hq
    | _ => cases found
  | awaitingOutcome p =>
    have seat : ⟨r.key, a, false⟩ ∈ S.filterMap Standing.outcomeSeat :=
      (Multiset.mem_filterMap _ _).mpr ⟨_, hs, rfl⟩
    have lacking : w.resolver.lacks r.key = true := by
      simp only [Site.isReady, Bool.or_eq_false_iff] at wait
      simp [Resolver.lacks, wait.2.1]
    obtain ⟨seat', hseat, -, first⟩ := balanced.outcomes.exists_first seat lacking
    obtain ⟨⟨b, r', stage'⟩, hq, found⟩ := (Multiset.mem_filterMap _ _).mp hseat
    cases stage' with
    | awaitingOutcome p' =>
      cases found
      simpa [Site.isReady, first] using waits _ hq
    | queued p' => cases notQueued _ hq
    | fetching wake outcome limit => cases idle _ hq
    | _ => cases found

end Deadlock

end LayeredConfig
