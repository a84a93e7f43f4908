import LayeredConfig.Proofs.Resolution.Start
import Mathlib.Order.WellFounded

/-!
# Who waits for whom

A reference that cannot move waits for others: for whoever is in front of the line that it
stands in, for those in front of it in the queue for permits, and for those that hold the
permits (`Standing.WaitsFor`). Wherever the books balance nobody waits in a circle, and whoever
is blocked waits for somebody (`Balanced.noDeadlock`). So the references that a run waits for in
the end are those whose calls are under way, each of them in front of its line and, if it
fetches, with one of the permits (`Standing.IsAtWork`).
-/

namespace LayeredConfig

namespace Standing

/-- A call of a provider is under way for a reference, which is in front of the line for what
comes of it. For a fetch it holds a permit. -/
inductive IsAtWork (w : World) : Standing → Prop where
  | building {here : Address} {r : Reference} {wake : Nat} {outcome : Except Failure Provider}
      (unbuilt : w.registry.isUnbuilt r.alias = true)
      (first : w.registry.lines.isFirst r.alias here = true) (ahead : w.now < wake) :
      IsAtWork w ⟨here, r, .building wake outcome⟩
  | fetching {here : Address} {r : Reference} {wake : Nat} {outcome : Except Failure Value}
      {limit : Option Nat} (uncached : Assoc.get? w.resolver.cache r.key = none)
      (first : w.resolver.lines.isFirst r.key here = true)
      (permit : w.resolver.free < w.resolver.policy.permits) (ahead : w.now < wake)
      (inTime : Context.reached limit w.now = false) :
      IsAtWork w ⟨here, r, .fetching wake outcome limit⟩

/-- A reference waits directly for another one. -/
inductive WaitsFor (w : World) (s s' : Standing) : Prop where
  /-- For the one in front of the line for its provider. -/
  | provider (waits : s.stage = .awaitingProvider)
      (front : w.registry.lines.isFirst s.reference.alias s'.address = true)
      (apart : s'.address ≠ s.address)
  /-- For the one in front of the line for its outcome. -/
  | outcome {p : Provider} (waits : s.stage = .awaitingOutcome p)
      (front : w.resolver.lines.isFirst s.reference.key s'.address = true)
      (apart : s'.address ≠ s.address)
  /-- For one that holds a permit. -/
  | permit {p : Provider} (waits : s.stage = .queued p) (holds : s'.stage.isFetching = true)
  /-- For one that is in front of it in the queue for permits. -/
  | turn {p : Provider} (waits : s.stage = .queued p) (queued : s'.stage.isQueued = true)
      (front : w.resolver.queue.idxOf s'.address < w.resolver.queue.idxOf s.address)

/-- A reference has begun and can neither move nor has a call under way. -/
structure IsBlocked (w : World) (s : Standing) : Prop where
  begun : s.stage ≠ .fresh
  waits : Site.isReady s.reference s.address w s.stage = false
  idle : s.stage.isUnderway = false

/-- How far a reference is from those that wait for nobody: before the queue, in the queue, in
front of a line or behind. -/
def rank (w : World) (s : Standing) : Nat :=
  match s.stage with
  | .awaitingProvider =>
    w.resolver.queue.length + if w.registry.lines.isFirst s.reference.alias s.address then 1 else 2
  | .awaitingOutcome _ =>
    w.resolver.queue.length + if w.resolver.lines.isFirst s.reference.key s.address then 1 else 2
  | .queued _ => w.resolver.queue.idxOf s.address + 1
  | _ => 0

end Standing

/-- References whose calls are all under way as they should be, of which those that are blocked
wait for others, and which do not wait for each other in a circle. -/
structure NoDeadlock (S : Multiset Standing) (w : World) : Prop where
  /-- Whoever has a call under way is about to end, or at work with all that it needs. -/
  atWork : ∀ s ∈ S, s.stage.isUnderway = true →
    Site.isReady s.reference s.address w s.stage = true ∨ s.IsAtWork w
  /-- There are as many permits out as fetches under way. -/
  permits : w.resolver.free + underwayCount S = w.resolver.policy.permits
  /-- Whoever is blocked waits for somebody. -/
  waits : ∀ s ∈ S, s.IsBlocked w → ∃ s' ∈ S, s.WaitsFor w s'
  /-- Among any references there is one that waits for none of them. -/
  noCircle : ∀ T : Set Standing, T.Nonempty → (∀ s ∈ T, s ∈ S) →
    ∃ s ∈ T, ∀ s' ∈ T, ¬ s.WaitsFor w s'

namespace Balanced

variable {S : Multiset Standing} {w : World} {s s' : Standing} {name : String}

/-- Whoever is in front of the line for a provider takes part in it. -/
theorem builderSeat_of_isFirst (balanced : Balanced S w) (hs : s ∈ S)
    (front : w.registry.lines.isFirst name s.address = true) :
    ∃ work, s.builderSeat = some ⟨name, s.address, work⟩ := by
  obtain ⟨-, seat, hseat, rfl, there⟩ :=
    (balanced.builders.mem_iff name s.address).mp (Lines.mem_of_isFirst front)
  obtain ⟨q, hq, found⟩ := (Multiset.mem_filterMap _ _).mp hseat
  obtain rfl : q = s :=
    balanced.eq_of_address hq hs ((Standing.builderSeat_address found).symm.trans there)
  exact ⟨seat.atWork, by rw [found, ← there]⟩

/-- Whoever is in front of the line for an outcome takes part in it. -/
theorem outcomeSeat_of_isFirst (balanced : Balanced S w) (hs : s ∈ S)
    (front : w.resolver.lines.isFirst name s.address = true) :
    ∃ work, s.outcomeSeat = some ⟨name, s.address, work⟩ := by
  obtain ⟨-, seat, hseat, rfl, there⟩ :=
    (balanced.outcomes.mem_iff name s.address).mp (Lines.mem_of_isFirst front)
  obtain ⟨q, hq, found⟩ := (Multiset.mem_filterMap _ _).mp hseat
  obtain rfl : q = s :=
    balanced.eq_of_address hq hs ((Standing.outcomeSeat_address found).symm.trans there)
  exact ⟨seat.atWork, by rw [found, ← there]⟩

/-- Who has queued stands in the queue. -/
theorem mem_queue (balanced : Balanced S w) (hs : s ∈ S) (inQueue : s.stage.isQueued = true) :
    s.address ∈ w.resolver.queue := by
  rw [← Multiset.mem_coe, balanced.queue]
  exact Multiset.mem_map_of_mem _ (Multiset.mem_filter.mpr ⟨hs, inQueue⟩)

/-- Whoever waits for another one is further back. -/
theorem rank_lt (balanced : Balanced S w) (hs' : s' ∈ S) (waits : s.WaitsFor w s') :
    s'.rank w < s.rank w := by
  obtain ⟨a, r, stage⟩ := s
  obtain ⟨b, r', stage'⟩ := s'
  cases waits with
  -- Who is in front of a line is not behind another one in it, so it ranks lower there.
  | provider waits front apart =>
    obtain rfl : stage = .awaitingProvider := waits
    have behind : w.registry.lines.isFirst r.alias a = false :=
      Bool.eq_false_iff.mpr fun first => apart (Lines.isFirst_unique front first)
    obtain ⟨work, seat⟩ := balanced.builderSeat_of_isFirst hs' front
    cases stage' with
    | awaitingProvider =>
      have same : r'.alias = r.alias := congrArg Seat.name (Option.some.inj seat)
      rw [← same] at front
      simp [Standing.rank, front, behind]
    | building wake outcome => simp [Standing.rank, behind]
    | _ => cases seat
  | outcome waits front apart =>
    obtain rfl : stage = .awaitingOutcome _ := waits
    have behind : w.resolver.lines.isFirst r.key a = false :=
      Bool.eq_false_iff.mpr fun first => apart (Lines.isFirst_unique front first)
    obtain ⟨work, seat⟩ := balanced.outcomeSeat_of_isFirst hs' front
    cases stage' with
    | awaitingOutcome p =>
      have same : r'.key = r.key := congrArg Seat.name (Option.some.inj seat)
      rw [← same] at front
      simp [Standing.rank, front, behind]
    | queued p =>
      have inside : w.resolver.queue.idxOf b < w.resolver.queue.length :=
        List.idxOf_lt_length_of_mem (balanced.mem_queue hs' rfl)
      simp only [Standing.rank, behind, Bool.false_eq_true, if_false]
      omega
    | fetching wake outcome limit => simp [Standing.rank, behind]
    | _ => cases seat
  | permit waits holds =>
    obtain rfl : stage = .queued _ := waits
    cases stage' with
    | fetching wake outcome limit => simp [Standing.rank]
    | _ => cases holds
  | turn waits queued front =>
    obtain rfl : stage = .queued _ := waits
    cases stage' with
    | queued p => simpa [Standing.rank] using front
    | _ => cases queued

/-- Nobody waits in a circle. -/
theorem noCircle (balanced : Balanced S w) {T : Set Standing} (some : T.Nonempty)
    (inside : ∀ s ∈ T, s ∈ S) : ∃ s ∈ T, ∀ s' ∈ T, ¬ s.WaitsFor w s' := by
  obtain ⟨s, hs, least⟩ := (measure (Standing.rank w)).wf.has_min T some
  exact ⟨s, hs, fun s' hs' waits => least s' hs' (balanced.rank_lt (inside s' hs') waits)⟩

/-- Who has queued and is not served waits for a permit, or for its turn. -/
theorem exists_waitsFor_of_queued (balanced : Balanced S w) {a : Address} {r : Reference}
    {p : Provider} (hs : ⟨a, r, .queued p⟩ ∈ S) (unserved : w.resolver.isNext a = false) :
    ∃ s' ∈ S, Standing.WaitsFor w ⟨a, r, .queued p⟩ s' := by
  have permits := balanced.permits
  have positive : 1 ≤ w.resolver.policy.permits := Nat.le_max_right _ _
  rcases Nat.eq_zero_or_pos w.resolver.free with none | some
  · -- All permits are out.
    obtain ⟨s', hs', fetching⟩ := Multiset.countP_pos.mp
      (show 0 < S.countP (·.stage.isFetching) by unfold underwayCount at permits; omega)
    exact ⟨s', hs', .permit rfl fetching⟩
  · -- The permits that are there are for those in front.
    have inside : a ∈ w.resolver.queue := balanced.mem_queue hs rfl
    obtain ⟨n, free⟩ := Nat.exists_eq_succ_of_ne_zero some.ne'
    cases queue : w.resolver.queue with
    | nil => simp [queue] at inside
    | cons b rest =>
      have first : b ∈ queued S := by
        rw [← balanced.queue, queue]
        simp
      obtain ⟨s', hs', rfl⟩ := Multiset.mem_map.mp first
      obtain ⟨hs', inQueue⟩ := Multiset.mem_filter.mp hs'
      refine ⟨s', hs', .turn rfl inQueue ?_⟩
      have apart : s'.address ≠ a := by
        rintro rfl
        simp [Resolver.isNext, queue, free] at unserved
      simp [queue, apart]

/-- Whoever is blocked waits for somebody. -/
theorem exists_waitsFor (balanced : Balanced S w) (hs : s ∈ S) (blocked : s.IsBlocked w) :
    ∃ s' ∈ S, s.WaitsFor w s' := by
  obtain ⟨begun, waits, idle⟩ := blocked
  obtain ⟨a, r, stage⟩ := s
  cases stage with
  | fresh => exact absurd rfl begun
  | building wake outcome => cases idle
  | fetching wake outcome limit => cases idle
  | queued p =>
    simp only [Site.isReady, Bool.or_eq_false_iff] at waits
    exact balanced.exists_waitsFor_of_queued hs waits.2
  | awaitingProvider =>
    simp only [Site.isReady, Bool.or_eq_false_iff, Bool.not_eq_false'] at waits
    obtain ⟨-, unbuilt, behind⟩ := waits
    have seat : ⟨r.alias, a, false⟩ ∈ S.filterMap Standing.builderSeat :=
      (Multiset.mem_filterMap _ _).mpr ⟨_, hs, rfl⟩
    obtain ⟨seat', hseat, same, first⟩ := balanced.builders.exists_first seat unbuilt
    obtain ⟨s', hs', found⟩ := (Multiset.mem_filterMap _ _).mp hseat
    rw [same, Standing.builderSeat_address found] at first
    refine ⟨s', hs', .provider rfl first fun there => ?_⟩
    rw [there] at first
    exact absurd first (by simp [behind])
  | awaitingOutcome p =>
    simp only [Site.isReady, Bool.or_eq_false_iff] at waits
    obtain ⟨-, uncached, behind⟩ := waits
    have seat : ⟨r.key, a, false⟩ ∈ S.filterMap Standing.outcomeSeat :=
      (Multiset.mem_filterMap _ _).mpr ⟨_, hs, rfl⟩
    obtain ⟨seat', hseat, same, first⟩ := balanced.outcomes.exists_first seat
      (by simp [Resolver.lacks, uncached])
    obtain ⟨s', hs', found⟩ := (Multiset.mem_filterMap _ _).mp hseat
    rw [same, Standing.outcomeSeat_address found] at first
    refine ⟨s', hs', .outcome rfl first fun there => ?_⟩
    rw [there] at first
    exact absurd first (by simp [behind])

/-- A call that is under way and has not come to its end is in front of its line, and a fetch
holds a permit. -/
theorem isAtWork (balanced : Balanced S w) (hs : s ∈ S) (underway : s.stage.isUnderway = true)
    (waits : Site.isReady s.reference s.address w s.stage = false) : s.IsAtWork w := by
  obtain ⟨F, rfl⟩ := Multiset.exists_cons_of_mem hs
  obtain ⟨a, r, stage⟩ := s
  cases stage with
  | building wake outcome =>
    have first := balanced.builder_atWork rfl
    simp only [Site.isReady, Bool.or_eq_false_iff, decide_eq_false_iff_not, Nat.not_le] at waits
    exact .building first.1 first.2 waits.2
  | fetching wake outcome limit =>
    have first := balanced.outcome_atWork rfl
    have permits := balanced.permits
    rw [underwayCount_cons, Stage.isFetching, if_pos rfl] at permits
    simp only [Site.isReady, Bool.or_eq_false_iff, decide_eq_false_iff_not, Nat.not_le] at waits
    exact .fetching (lacks_eq_true_iff.mp first.1) first.2 (by omega) waits.2.1 waits.2.2
  | _ => cases underway

theorem noDeadlock (balanced : Balanced S w) : NoDeadlock S w where
  atWork s hs underway := by
    cases ready : Site.isReady s.reference s.address w s.stage with
    | true => exact .inl rfl
    | false => exact .inr (balanced.isAtWork hs underway ready)
  permits := balanced.permits
  waits _ hs blocked := balanced.exists_waitsFor hs blocked
  noCircle _ some inside := balanced.noCircle some inside

end Balanced

/-! ### Runs -/

namespace Task

variable {parallel : Bool} {t : Task} {w : World}

/-- A run that begins with a task in a world is never stuck. -/
structure RunsFreely (parallel : Bool) (t : Task) (w : World) : Prop where
  /-- In whatever order its references move, they never wait only for each other. -/
  noDeadlock : ∀ t' w', Runs parallel t w t' w' → NoDeadlock (t'.sites parallel []) w'
  /-- After every look, until it is over, something can move at once or a call of a provider is
  under way. -/
  progress : ∀ t' w', Steps parallel t w t' w' → t'.isOver = false →
    t'.isReady parallel w' [] = true ∨ ∃ s ∈ t'.sites parallel [], s.IsAtWork w'
  /-- It goes on from there, and comes closer to its end. -/
  onward : ∀ t' w', Steps parallel t w t' w' → t'.isOver = false →
    ∃ t'' w'', t'.step? parallel w' = some (t'', w'') ∧ potential t'' w'' < potential t' w'

theorem Fit.runsFreely (fit : t.Fit parallel w) : t.RunsFreely parallel w where
  noDeadlock _ _ runs := (runs.keeps_all balanced_endures fit.balanced).noDeadlock
  progress t' w' steps isOpen := by
    obtain ⟨-, fit'⟩ := steps.runs_and_fit fit
    by_cases waits : ready parallel w' [] t' = []
    · obtain ⟨s, hs, underway, unready⟩ := fit'.exists_underway isOpen waits
      exact .inr ⟨s, hs, fit'.balanced.isAtWork hs underway unready⟩
    · exact .inl (isReady_iff.mpr waits)
  onward t' w' steps isOpen := by
    obtain ⟨t'', w'', step, -, -, lt⟩ := exists_step (steps.runs_and_fit fit).2 isOpen
    exact ⟨t'', w'', step, lt⟩

end Task

end LayeredConfig
