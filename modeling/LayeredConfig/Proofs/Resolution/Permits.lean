import LayeredConfig.Proofs.Resolution.Session

/-!
Permits.

A permit is free, or handed to a reference that has queued for it, or held by a fetch that
is under way; none is ever lost or made up (`Balanced.permits_eq`). So in every state of
every session no more fetches are under way than the policy allows, and whatever an
operation leaves behind, all permits are free again (`World.permits_conserved`).
-/

namespace LayeredConfig

/-- How many permits are neither held nor handed to somebody in the queue. -/
def Resolver.available (r : Resolver) : Nat := r.free - r.queue.length

/-- How many references in the queue have been handed a permit. -/
def handedCount (S : Multiset Standing) (r : Resolver) : Nat :=
  S.countP fun s => s.stage.isQueued = true ∧ r.isNext s.address = true

/-- In a list without repetitions, who is among the first is so only once. -/
theorem countP_mem_take {l : List Address} (nodup : l.Nodup) (n : Nat) :
    l.countP (· ∈ l.take n) = min n l.length := by
  have front : (l.take n).countP (· ∈ l.take n) = (l.take n).length :=
    List.countP_eq_length.mpr fun a ha => by simpa using ha
  have back : (l.drop n).countP (· ∈ l.take n) = 0 := by
    refine List.countP_eq_zero.mpr ?_
    intro a later first
    exact List.disjoint_take_drop nodup le_rfl (by simpa using first) later
  have whole : l.countP (· ∈ l.take n)
      = (l.take n).countP (· ∈ l.take n) + (l.drop n).countP (· ∈ l.take n) := by
    rw [← List.countP_append, List.take_append_drop]
  rw [whole, front, back, Nat.add_zero, List.length_take]

namespace Balanced

variable {S : Multiset Standing} {w : World}

theorem queue_nodup (balanced : Balanced S w) : w.resolver.queue.Nodup := by
  rw [← Multiset.coe_nodup, balanced.queue]
  exact Multiset.nodup_of_le (Multiset.map_le_map (Multiset.filter_le _ S)) balanced.apart

/-- The permits that nobody holds are handed out first come, first served. -/
theorem handedCount_eq (balanced : Balanced S w) :
    handedCount S w.resolver = min w.resolver.free w.resolver.queue.length := by
  have waiting : handedCount S w.resolver
      = (queued S).countP fun a => w.resolver.isNext a = true := by
    rw [handedCount, queued, Multiset.countP_map, ← Multiset.countP_eq_card_filter,
      Multiset.countP_filter]
    exact Multiset.countP_congr rfl fun s _ => by rw [and_comm]
  rw [waiting, ← balanced.queue, Multiset.coe_countP]
  simpa [Resolver.isNext] using countP_mem_take balanced.queue_nodup w.resolver.free

/-- Every permit is available, or handed to somebody, or held by a fetch under way. -/
theorem permits_eq (balanced : Balanced S w) :
    w.resolver.available + handedCount S w.resolver + underwayCount S
      = w.resolver.policy.permits := by
  rw [balanced.handedCount_eq, ← balanced.permits, Resolver.available]
  omega

end Balanced

namespace World

/-- Throughout a session, whatever is done with a resolver, its permits are conserved: in
every state of every run each of them is available, or handed to a reference in the queue,
or held by a fetch under way, of which there are no more than permits. Once an operation
is over, and wherever a run is dropped, nothing is locked and every permit is free. So every
run comes to a result. -/
theorem permits_conserved (start : World) (idle : start.IsIdle) (ops : List Operation) :
    (start.after ops).IsIdle ∧
      (start.after ops).resolver.free = max start.resolver.policy.maxConcurrent 1 ∧
      ∀ (request : Request) (context : Context),
        (∃ t w x, runTask { start.after ops with context } request.task
            = (some x, { w with agenda := {} }) ∧ t.result? = some x ∧
          Task.Runs start.resolver.policy.isParallel request.task
            { start.after ops with context } t w) ∧
        ∀ t w, Task.Runs start.resolver.policy.isParallel request.task
            { start.after ops with context } t w →
          w.resolver.available
              + handedCount (t.sites start.resolver.policy.isParallel []) w.resolver
              + underwayCount (t.sites start.resolver.policy.isParallel [])
            = max start.resolver.policy.maxConcurrent 1 ∧
          underwayCount (t.sites start.resolver.policy.isParallel [])
            ≤ max start.resolver.policy.maxConcurrent 1 ∧
          (t.release start.resolver.policy.isParallel [] w).IsIdle := by
  have after := idle.after ops
  have policy := (Retains.after start idle ops).policy
  have permits : (start.after ops).resolver.policy.permits
      = max start.resolver.policy.maxConcurrent 1 := by
    rw [policy, Policy.permits]
  refine ⟨after, after.permits.trans permits, ?_⟩
  intro request context
  have fit := request.fit (after.renew context) start.resolver.policy.isParallel
  constructor
  · rw [← policy] at fit
    obtain ⟨t, w, x, ran, result, runs⟩ :=
      runTask_ends (w := { start.after ops with context }) fit
    refine ⟨t, w, x, ran, result, ?_⟩
    rwa [← policy]
  · intro t w runs
    have balanced := runs.keeps_all Task.balanced_endures fit.balanced
    have whole := balanced.permits_eq
    rw [(runs.grows fit.balanced).policy, permits] at whole
    exact ⟨whole, by omega, isIdle_iff.mpr (runs.dropped Task.balanced_endures fit.balanced)⟩

/-- A run that is dropped while it fetches, one that is cancelled, and one that succeeds. -/
def roughSession (request : Request) : List Operation :=
  [.abandon request 1, .resolve request (some 3), .renew {}, .resolve request none]

theorem permits_conserved_roughSession :
    IsIdle { registry := .only [] "app" (.echo 5), resolver := { policy.maxConcurrent := 1 } } ∧
      ∀ request : Request, (World.after
        { registry := .only [] "app" (.echo 5), resolver := { policy.maxConcurrent := 1 } }
        (roughSession request)).resolver.free = 1 :=
  ⟨⟨rfl, rfl, rfl, rfl⟩, fun request =>
    (permits_conserved
      { registry := .only [] "app" (.echo 5), resolver := { policy.maxConcurrent := 1 } }
      ⟨rfl, rfl, rfl, rfl⟩ (roughSession request)).2.1⟩

end World

end LayeredConfig
