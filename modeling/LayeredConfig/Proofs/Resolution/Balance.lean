import Mathlib.Data.Multiset.AddSub
import LayeredConfig.Proofs.Resolution.Moves

/-!
The books balance.

While a value is resolved its references stand at addresses, each at a stage. What a
world keeps about them must agree with where they stand: who stands in which line, who
has queued for a permit, and how many permits are out. `Balanced` states this
agreement.

Proved here:

* `Balanced.move` says that every move of a site keeps the books balanced. Its cases are
  lemmas where a move does more than to change a seat: `Balanced.setBuilt`,
  `Balanced.enqueue`, `Balanced.takePermit`, `Balanced.takePermit_queued` and
  `Balanced.conclude`. For all others `Balanced.restage` is enough.
* `Balanced.surrender` says that a reference which is dropped gives back all that it holds.
* `Balanced.builder_atWork` and `Balanced.outcome_atWork` say that whoever builds or fetches
  is in front of a line that is open.
* `Balanced.eq_of_address` says that at one address there is one reference.
* `balanced_zero_iff` says that when nobody is left, nothing is held any more: the lines and
  the queue are empty and every permit is back.
-/

namespace LayeredConfig

/-- A reference at an address, at a stage. -/
structure Standing where
  address : Address
  reference : Reference
  stage : Stage

namespace Stage

/-- Whether a reference has queued for a permit. -/
def isQueued : Stage → Bool
  | .queued _ => true
  | _ => false

/-- Whether a reference holds a permit. -/
def isFetching : Stage → Bool
  | .fetching _ _ _ => true
  | _ => false

end Stage

namespace Standing

/-- The part that a standing reference takes in the line for its provider. -/
def builderSeat (s : Standing) : Option Seat :=
  match s.stage with
  | .awaitingProvider => some ⟨s.reference.alias, s.address, false⟩
  | .building _ _ => some ⟨s.reference.alias, s.address, true⟩
  | _ => none

/-- The part that a standing reference takes in the line for its outcome. -/
def outcomeSeat (s : Standing) : Option Seat :=
  match s.stage with
  | .awaitingOutcome _ => some ⟨s.reference.key, s.address, false⟩
  | .queued _ => some ⟨s.reference.key, s.address, true⟩
  | .fetching _ _ _ => some ⟨s.reference.key, s.address, true⟩
  | _ => none

/-- A reference stands in line where it stands. -/
theorem builderSeat_address {s : Standing} {seat : Seat} (h : s.builderSeat = some seat) :
    seat.address = s.address := by
  unfold builderSeat at h
  split at h <;> cases h <;> rfl

theorem outcomeSeat_address {s : Standing} {seat : Seat} (h : s.outcomeSeat = some seat) :
    seat.address = s.address := by
  unfold outcomeSeat at h
  split at h <;> cases h <;> rfl

end Standing

/-- Whether an outcome is still to be fetched. -/
def Resolver.lacks (s : Resolver) (key : String) : Bool := !Assoc.contains s.cache key

/-- Where references have queued for a permit. -/
def queued (S : Multiset Standing) : Multiset Address :=
  (S.filter (·.stage.isQueued)).map Standing.address

/-- How many fetches are under way. -/
def underwayCount (S : Multiset Standing) : Nat := S.countP (·.stage.isFetching)

/-- Where references stand once one of them has come so far, among all the others. -/
def Progress.among (here : Address) (r : Reference) (F : Multiset Standing) :
    Progress → Multiset Standing
  | .waiting stage => ⟨here, r, stage⟩ ::ₘ F
  | .settled _ => F

/-- What a world keeps agrees with where the references stand. -/
structure Balanced (S : Multiset Standing) (w : World) : Prop where
  /-- No two references stand at the same address. -/
  apart : (S.map Standing.address).Nodup
  builders : w.registry.lines.Serves w.registry.isUnbuilt (S.filterMap Standing.builderSeat)
  outcomes : w.resolver.lines.Serves w.resolver.lacks (S.filterMap Standing.outcomeSeat)
  queue : (w.resolver.queue : Multiset Address) = queued S
  /-- Every fetch under way holds a permit, and nobody else does. -/
  permits : w.resolver.free + underwayCount S = w.resolver.policy.permits

section Counting

variable (here : Address) (r : Reference) (stage : Stage) (S : Multiset Standing)

@[simp] theorem queued_zero : queued 0 = 0 := rfl

/-- Among those who have queued are the ones at that stage, and no others. -/
@[simp] theorem queued_cons : queued (⟨here, r, stage⟩ ::ₘ S)
    = if stage.isQueued then here ::ₘ queued S else queued S := by
  cases h : stage.isQueued <;> simp [queued, h]

@[simp] theorem underwayCount_zero : underwayCount 0 = 0 := rfl

/-- Each fetch counts once. -/
@[simp] theorem underwayCount_cons : underwayCount (⟨here, r, stage⟩ ::ₘ S)
    = underwayCount S + if stage.isFetching then 1 else 0 := by
  unfold underwayCount
  rw [Multiset.countP_cons]

end Counting

/-! ### What changes lines and cache -/

/-- An outcome that is kept is not to be fetched any more. -/
theorem lacks_record (s : Resolver) (key : String) (o : Outcome) (other : String) :
    (s.record key o).lacks other = (s.lacks other && decide (other ≠ key)) := by
  simp only [Resolver.lacks, Resolver.record, Assoc.contains, Assoc.get?_insert]
  by_cases same : key = other
  · simp [same]
  · simp [same, Ne.symm same]

theorem lacks_eq_true_iff {s : Resolver} {key : String} :
    s.lacks key = true ↔ Assoc.get? s.cache key = none := by
  simp [Resolver.lacks, Assoc.contains]

/-- What is still to be built has been declared and nothing has become of it. -/
theorem isUnbuilt_iff {g : Registry} {name : String} :
    g.isUnbuilt name = true ↔ ∃ providerType config,
      Assoc.get? g.bindings name = some (.declared providerType config none) := by
  unfold Registry.isUnbuilt
  split
  · rename_i providerType config found
    exact ⟨fun _ => ⟨providerType, config, found⟩, fun _ => rfl⟩
  · rename_i other
    constructor
    · intro h
      cases h
    · rintro ⟨providerType, config, found⟩
      exact absurd found (other providerType config)

/-- What has been built is not to be built any more. -/
theorem isUnbuilt_setBuilt {g : Registry} {name : String} (unbuilt : g.isUnbuilt name = true)
    (result : Except SetupError Provider) (other : String) :
    (g.setBuilt name result).isUnbuilt other = (g.isUnbuilt other && decide (other ≠ name)) := by
  obtain ⟨providerType, config, found⟩ := isUnbuilt_iff.mp unbuilt
  by_cases same : name = other
  · subst same
    simp [Registry.isUnbuilt, Site.get?_setBuilt found result]
  · simp [Registry.isUnbuilt, Registry.setBuilt, found, Assoc.get?_insert, same, Ne.symm same]

/-- With the end of a building its line is dissolved. -/
theorem setBuilt_lines {g : Registry} {name : String} (unbuilt : g.isUnbuilt name = true)
    (result : Except SetupError Provider) :
    (g.setBuilt name result).lines = g.lines.dissolve name := by
  obtain ⟨providerType, config, found⟩ := isUnbuilt_iff.mp unbuilt
  simp [Registry.setBuilt, found]

/-! ### Nobody and somebody -/

/-- Nobody stands anywhere exactly when nothing is held. -/
theorem balanced_zero_iff {w : World} : Balanced 0 w ↔
    w.registry.lines = [] ∧ w.resolver.lines = [] ∧ w.resolver.queue = [] ∧
      w.resolver.free = w.resolver.policy.permits := by
  constructor
  · intro h
    exact ⟨h.builders.eq_nil, h.outcomes.eq_nil, by simpa using h.queue, by simpa using h.permits⟩
  · rintro ⟨builders, outcomes, queue, permits⟩
    exact ⟨by simp, builders ▸ .nil _, outcomes ▸ .nil _, by simp [queue], by simpa using permits⟩

/-! ### One component at a time -/

namespace Balanced

variable {F : Multiset Standing} {w w' : World} {here : Address} {r : Reference}
  {stage stage' : Stage}

/-- The others stand at addresses of their own. -/
theorem apart_rest (balanced : Balanced (⟨here, r, stage⟩ ::ₘ F) w) :
    (F.map Standing.address).Nodup := by
  have apart := balanced.apart
  rw [Multiset.map_cons, Multiset.nodup_cons] at apart
  exact apart.2

/-- Nobody else stands where a reference stands. -/
theorem address_ne (balanced : Balanced (⟨here, r, stage⟩ ::ₘ F) w) {s : Standing} (hs : s ∈ F) :
    s.address ≠ here := by
  have apart := balanced.apart
  rw [Multiset.map_cons, Multiset.nodup_cons] at apart
  intro same
  exact apart.1 (same ▸ Multiset.mem_map_of_mem Standing.address hs : here ∈ F.map Standing.address)

/-- At one address there is one reference. -/
theorem eq_of_address {S : Multiset Standing} {s s' : Standing} (balanced : Balanced S w)
    (hs : s ∈ S) (hs' : s' ∈ S) (same : s.address = s'.address) : s = s' :=
  Multiset.inj_on_of_nodup_map balanced.apart s hs s' hs' same

/-- Nobody else takes part in the lines for providers from the same address. -/
theorem builders_alone (balanced : Balanced (⟨here, r, stage⟩ ::ₘ F) w) :
    ∀ seat ∈ F.filterMap Standing.builderSeat, seat.address ≠ here := by
  intro seat hseat
  obtain ⟨s, hs, found⟩ := Multiset.mem_filterMap _ _ |>.mp hseat
  rw [Standing.builderSeat_address found]
  exact balanced.address_ne hs

/-- Nobody else takes part in the lines for outcomes from the same address. -/
theorem outcomes_alone (balanced : Balanced (⟨here, r, stage⟩ ::ₘ F) w) :
    ∀ seat ∈ F.filterMap Standing.outcomeSeat, seat.address ≠ here := by
  intro seat hseat
  obtain ⟨s, hs, found⟩ := Multiset.mem_filterMap _ _ |>.mp hseat
  rw [Standing.outcomeSeat_address found]
  exact balanced.address_ne hs

/-- The lines for providers, seen from one reference that takes part in them. -/
theorem builders_cons {work : Bool} (balanced : Balanced (⟨here, r, stage⟩ ::ₘ F) w)
    (seat : (Standing.mk here r stage).builderSeat = some ⟨r.alias, here, work⟩) :
    w.registry.lines.Serves w.registry.isUnbuilt
      (⟨r.alias, here, work⟩ ::ₘ F.filterMap Standing.builderSeat) := by
  have builders := balanced.builders
  rwa [Multiset.filterMap_cons_some _ _ _ seat] at builders

/-- The lines for outcomes, seen from one reference that takes part in them. -/
theorem outcomes_cons {work : Bool} (balanced : Balanced (⟨here, r, stage⟩ ::ₘ F) w)
    (seat : (Standing.mk here r stage).outcomeSeat = some ⟨r.key, here, work⟩) :
    w.resolver.lines.Serves w.resolver.lacks
      (⟨r.key, here, work⟩ ::ₘ F.filterMap Standing.outcomeSeat) := by
  have outcomes := balanced.outcomes
  rwa [Multiset.filterMap_cons_some _ _ _ seat] at outcomes

/-- Whoever builds a provider is in front of a line that is open. -/
theorem builder_atWork (balanced : Balanced (⟨here, r, stage⟩ ::ₘ F) w)
    (seat : (Standing.mk here r stage).builderSeat = some ⟨r.alias, here, true⟩) :
    w.registry.isUnbuilt r.alias = true ∧ w.registry.lines.isFirst r.alias here :=
  (balanced.builders_cons seat).atWork _ (Multiset.mem_cons_self _ _) rfl

/-- Whoever fetches an outcome is in front of a line that is open. -/
theorem outcome_atWork (balanced : Balanced (⟨here, r, stage⟩ ::ₘ F) w)
    (seat : (Standing.mk here r stage).outcomeSeat = some ⟨r.key, here, true⟩) :
    w.resolver.lacks r.key = true ∧ w.resolver.lines.isFirst r.key here :=
  (balanced.outcomes_cons seat).atWork _ (Multiset.mem_cons_self _ _) rfl

/-- A reference with no part in the lines for providers is no loss to them. -/
theorem builders_rest (balanced : Balanced (⟨here, r, stage⟩ ::ₘ F) w)
    (noSeat : (Standing.mk here r stage).builderSeat = none) :
    w.registry.lines.Serves w.registry.isUnbuilt (F.filterMap Standing.builderSeat) := by
  have builders := balanced.builders
  rwa [Multiset.filterMap_cons_none _ _ noSeat] at builders

/-- A reference with no part in the lines for outcomes is no loss to them. -/
theorem outcomes_rest (balanced : Balanced (⟨here, r, stage⟩ ::ₘ F) w)
    (noSeat : (Standing.mk here r stage).outcomeSeat = none) :
    w.resolver.lines.Serves w.resolver.lacks (F.filterMap Standing.outcomeSeat) := by
  have outcomes := balanced.outcomes
  rwa [Multiset.filterMap_cons_none _ _ noSeat] at outcomes

/-- A reference that has no part in the lines for providers may come to any stage without one. -/
theorem builders_still (balanced : Balanced (⟨here, r, stage⟩ ::ₘ F) w)
    (before : (Standing.mk here r stage).builderSeat = none)
    (after : (Standing.mk here r stage').builderSeat = none) :
    w.registry.lines.Serves w.registry.isUnbuilt
      ((⟨here, r, stage'⟩ ::ₘ F).filterMap Standing.builderSeat) := by
  rw [Multiset.filterMap_cons_none _ _ after]
  exact balanced.builders_rest before

/-- A reference that has no part in the lines for outcomes may come to any stage without one. -/
theorem outcomes_still (balanced : Balanced (⟨here, r, stage⟩ ::ₘ F) w)
    (before : (Standing.mk here r stage).outcomeSeat = none)
    (after : (Standing.mk here r stage').outcomeSeat = none) :
    w.resolver.lines.Serves w.resolver.lacks
      ((⟨here, r, stage'⟩ ::ₘ F).filterMap Standing.outcomeSeat) := by
  rw [Multiset.filterMap_cons_none _ _ after]
  exact balanced.outcomes_rest before

/-- Whoever is in front of an open line for an outcome may be the one who works on it. -/
theorem outcomes_toWork {work : Bool} (balanced : Balanced (⟨here, r, stage⟩ ::ₘ F) w)
    (before : (Standing.mk here r stage).outcomeSeat = some ⟨r.key, here, work⟩)
    (after : (Standing.mk here r stage').outcomeSeat = some ⟨r.key, here, true⟩)
    (lacking : w.resolver.lacks r.key = true) (first : w.resolver.lines.isFirst r.key here) :
    w.resolver.lines.Serves w.resolver.lacks
      ((⟨here, r, stage'⟩ ::ₘ F).filterMap Standing.outcomeSeat) := by
  rw [Multiset.filterMap_cons_some _ _ _ after]
  exact (balanced.outcomes_cons before).toWork lacking first

/-- What is written down has no part in the books. -/
theorem log {S : Multiset Standing} (balanced : Balanced S w) (e : Event) :
    Balanced S (w.log e) :=
  ⟨balanced.apart, balanced.builders, balanced.outcomes, balanced.queue, balanced.permits⟩

/-- Whose turn it is has no part in the books. -/
theorem plan {S : Multiset Standing} (balanced : Balanced S w) (f : Agenda → Agenda) :
    Balanced S (w.plan f) :=
  ⟨balanced.apart, balanced.builders, balanced.outcomes, balanced.queue, balanced.permits⟩

/-- A reference that holds nothing may go. -/
theorem depart (balanced : Balanced (⟨here, r, .fresh⟩ ::ₘ F) w) : Balanced F w where
  apart := balanced.apart_rest
  builders := balanced.builders_rest rfl
  outcomes := balanced.outcomes_rest rfl
  queue := by simpa [Stage.isQueued] using balanced.queue
  permits := by simpa [Stage.isFetching] using balanced.permits

/-- Who leaves the queue for permits is the one who has gone from it. -/
theorem queue_erase {q : List Address} {Q : Multiset Address}
    (queue : (q : Multiset Address) = here ::ₘ Q) : (q.erase here : Multiset Address) = Q := by
  have inside : here ∈ q := by
    rw [← Multiset.mem_coe, queue]
    exact Multiset.mem_cons_self here Q
  have perm : (q : Multiset Address) = here ::ₘ (q.erase here : Multiset Address) :=
    Multiset.coe_eq_coe.mpr (List.perm_cons_erase inside)
  exact (Multiset.cons_inj_right here).mp (perm.symm.trans queue)

/-- A reference goes once it has given back what it holds. -/
theorem surrender (balanced : Balanced (⟨here, r, stage⟩ ::ₘ F) w) :
    Balanced F (Site.surrender r here stage w) := by
  have queue := balanced.queue
  have permits := balanced.permits
  cases stage <;> simp only [queued_cons, underwayCount_cons, Stage.isQueued, Stage.isFetching,
    if_true, Bool.false_eq_true, if_false, Nat.add_zero] at queue permits
  case fresh => exact balanced.depart
  case awaitingProvider =>
    exact ⟨balanced.apart_rest, (balanced.builders_cons rfl).leave balanced.builders_alone,
      balanced.outcomes_rest rfl, queue, permits⟩
  case building =>
    exact ⟨balanced.apart_rest, (balanced.builders_cons rfl).leave balanced.builders_alone,
      balanced.outcomes_rest rfl, queue, permits⟩
  case awaitingOutcome =>
    exact ⟨balanced.apart_rest, balanced.builders_rest rfl,
      (balanced.outcomes_cons rfl).leave balanced.outcomes_alone, queue, permits⟩
  case queued =>
    exact ⟨balanced.apart_rest, balanced.builders_rest rfl,
      (balanced.outcomes_cons rfl).leave balanced.outcomes_alone, queue_erase queue, permits⟩
  case fetching =>
    refine ⟨balanced.apart_rest, balanced.builders_rest rfl,
      (balanced.outcomes_cons rfl).leave balanced.outcomes_alone, queue, ?_⟩
    simp only [Site.surrender, World.update_resolver, Resolver.leaveLine, Resolver.returnPermit]
    omega

/-! ### Moves -/

/-- A reference comes to another stage: its seats change, the queue and the permits do not. -/
theorem restage (balanced : Balanced (⟨here, r, stage⟩ ::ₘ F) w)
    (builders : w'.registry.lines.Serves w'.registry.isUnbuilt
      ((⟨here, r, stage'⟩ ::ₘ F).filterMap Standing.builderSeat))
    (outcomes : w'.resolver.lines.Serves w'.resolver.lacks
      ((⟨here, r, stage'⟩ ::ₘ F).filterMap Standing.outcomeSeat))
    (queued : stage'.isQueued = stage.isQueued) (fetching : stage'.isFetching = stage.isFetching)
    (queue : w'.resolver.queue = w.resolver.queue) (free : w'.resolver.free = w.resolver.free)
    (policy : w'.resolver.policy = w.resolver.policy) :
    Balanced (⟨here, r, stage'⟩ ::ₘ F) w' where
  apart := by simpa using balanced.apart
  builders := builders
  outcomes := outcomes
  queue := by
    have before := balanced.queue
    rw [queued_cons] at before ⊢
    rw [queued, queue, before]
  permits := by
    have before := balanced.permits
    rw [underwayCount_cons] at before ⊢
    rw [fetching, free, policy, before]

/-- A fetch is over: its permit is back, and its line is served. -/
theorem conclude {wake : Nat} {outcome : Except Failure Value} {limit : Option Nat}
    (balanced : Balanced (⟨here, r, .fetching wake outcome limit⟩ ::ₘ F) w) (o : Outcome) :
    Balanced F (Site.conclude r o w) := by
  have queue := balanced.queue
  have permits := balanced.permits
  simp only [queued_cons, underwayCount_cons, Stage.isQueued, Stage.isFetching, if_true,
    Bool.false_eq_true, if_false] at queue permits
  refine ⟨balanced.apart_rest, balanced.builders_rest rfl,
    (balanced.outcomes_cons rfl).dissolve (balanced.outcome_atWork rfl).2 balanced.outcomes_alone
      (lacks_record w.resolver r.key o), queue, ?_⟩
  simp only [Site.conclude, World.update_resolver, Resolver.record, Resolver.returnPermit]
  omega

/-- A provider has been built, or could not be: its line is served. -/
theorem setBuilt {work : Bool} (balanced : Balanced (⟨here, r, stage⟩ ::ₘ F) w)
    (seat : (Standing.mk here r stage).builderSeat = some ⟨r.alias, here, work⟩)
    (unbuilt : w.registry.isUnbuilt r.alias = true) (first : w.registry.lines.isFirst r.alias here)
    (result : Except SetupError Provider) :
    Balanced (⟨here, r, .fresh⟩ ::ₘ F) (w.updateRegistry (·.setBuilt r.alias result)) := by
  have builders := (balanced.builders_cons seat).dissolve first balanced.builders_alone
    (isUnbuilt_setBuilt unbuilt result)
  rw [← setBuilt_lines unbuilt result] at builders
  refine balanced.restage ?_ ?_ ?_ ?_ rfl rfl rfl
  · rw [Multiset.filterMap_cons_none (f := Standing.builderSeat) _ _ rfl]
    exact builders
  · rw [Multiset.filterMap_cons_none (f := Standing.outcomeSeat) _ _ rfl]
    apply balanced.outcomes_rest
    cases stage <;> simp_all [Standing.builderSeat, Standing.outcomeSeat]
  · cases stage <;> simp_all [Standing.builderSeat, Stage.isQueued]
  · cases stage <;> simp_all [Standing.builderSeat, Stage.isFetching]

/-- Whoever is in front of the line for an outcome takes a permit for a fetch. -/
theorem takePermit {p : Provider} (balanced : Balanced (⟨here, r, .awaitingOutcome p⟩ ::ₘ F) w)
    (lacking : w.resolver.lacks r.key = true) (first : w.resolver.lines.isFirst r.key here)
    (spare : 0 < w.resolver.free) (call : Call Value) :
    Balanced (⟨here, r, Site.underway call w⟩ ::ₘ F) (Site.dispatch r call w) := by
  have queue := balanced.queue
  have permits := balanced.permits
  simp only [queued_cons, underwayCount_cons, Stage.isQueued, Stage.isFetching,
    Bool.false_eq_true, if_false] at queue permits
  refine ⟨by simpa using balanced.apart, balanced.builders_still rfl rfl,
    balanced.outcomes_toWork rfl rfl lacking first, ?_, ?_⟩
  · simpa [Site.underway, Site.dispatch, Stage.isQueued, Resolver.takePermit] using queue
  · simp only [Site.dispatch, Site.underway, underwayCount_cons, Stage.isFetching, if_true,
      World.heed_resolver, World.log_resolver, World.update_resolver, Resolver.takePermit]
    omega

/-- Whoever has queued takes a permit for a fetch. -/
theorem takePermit_queued {p : Provider} (balanced : Balanced (⟨here, r, .queued p⟩ ::ₘ F) w)
    (spare : 0 < w.resolver.free) (call : Call Value) :
    Balanced (⟨here, r, Site.underway call w⟩ ::ₘ F)
      (Site.dispatch r call (w.update (·.leaveQueue here))) := by
  have queue := balanced.queue
  have permits := balanced.permits
  simp only [queued_cons, underwayCount_cons, Stage.isQueued, Stage.isFetching, if_true,
    Bool.false_eq_true, if_false] at queue permits
  obtain ⟨lacking, first⟩ := balanced.outcome_atWork rfl
  refine ⟨by simpa using balanced.apart, balanced.builders_still rfl rfl,
    balanced.outcomes_toWork rfl rfl lacking first, ?_, ?_⟩
  · simpa [Site.underway, Site.dispatch, Stage.isQueued, Resolver.takePermit,
      Resolver.leaveQueue] using queue_erase queue
  · simp only [Site.dispatch, Site.underway, underwayCount_cons, Stage.isFetching, if_true,
      World.heed_resolver, World.log_resolver, World.update_resolver, Resolver.takePermit,
      Resolver.leaveQueue]
    omega

/-- Whoever is in front of the line for an outcome queues for a permit. -/
theorem enqueue {p : Provider} (balanced : Balanced (⟨here, r, .awaitingOutcome p⟩ ::ₘ F) w)
    (lacking : w.resolver.lacks r.key = true) (first : w.resolver.lines.isFirst r.key here) :
    Balanced (⟨here, r, .queued p⟩ ::ₘ F) (w.update (·.enqueue here)) := by
  have queue := balanced.queue
  have permits := balanced.permits
  simp only [queued_cons, underwayCount_cons, Stage.isQueued, Stage.isFetching,
    Bool.false_eq_true, if_false] at queue permits
  refine ⟨by simpa using balanced.apart, balanced.builders_still rfl rfl,
    balanced.outcomes_toWork rfl rfl lacking first, ?_, ?_⟩
  · rw [queued_cons]
    simp only [Stage.isQueued, if_true, ← queue, Multiset.cons_coe]
    exact Multiset.coe_eq_coe.mpr (List.perm_append_singleton here w.resolver.queue)
  · simpa [Stage.isFetching, Resolver.enqueue] using permits

/-- Every move of a reference keeps the books balanced. -/
theorem move {p : Progress} (balanced : Balanced (⟨here, r, stage⟩ ::ₘ F) w)
    (move : Site.Move r here stage w p w') : Balanced (p.among here r F) w' := by
  cases move with
  | turn _ _ f => exact balanced.plan f
  | stop interrupted => exact balanced.surrender
  | remember cached => exact balanced.depart
  | unbound free => exact balanced.depart
  | refused built => exact balanced.depart
  | seekProvider unbuilt =>
    refine balanced.restage ?_ (balanced.outcomes_still rfl rfl) rfl rfl rfl rfl rfl
    rw [Multiset.filterMap_cons_some Standing.builderSeat _ _ rfl]
    exact (balanced.builders_rest rfl).join (isUnbuilt_iff.mpr ⟨_, _, unbuilt⟩)
  | providerBuilt built =>
    refine balanced.restage ?_ (balanced.outcomes_still rfl rfl) rfl rfl rfl rfl rfl
    rw [Multiset.filterMap_cons_none (f := Standing.builderSeat) _ _ rfl]
    exact (balanced.builders_cons rfl).forget built
  | build unbuilt first live known =>
    refine balanced.restage ?_ (balanced.outcomes_still rfl rfl) rfl rfl rfl rfl rfl
    rw [Multiset.filterMap_cons_some Standing.builderSeat _ _ rfl]
    exact (balanced.builders_cons rfl).toWork (isUnbuilt_iff.mpr ⟨_, _, unbuilt⟩) first
  | unknownType unbuilt first unknown =>
    exact balanced.setBuilt rfl (isUnbuilt_iff.mpr ⟨_, _, unbuilt⟩) first _
  | built due unbuilt =>
    have atWork := balanced.builder_atWork rfl
    exact balanced.setBuilt rfl atWork.1 atWork.2 _
  | seekOutcome provides uncached =>
    refine balanced.restage (balanced.builders_still rfl rfl) ?_ rfl rfl rfl rfl rfl
    rw [Multiset.filterMap_cons_some Standing.outcomeSeat _ _ rfl]
    exact (balanced.outcomes_rest rfl).join (lacks_eq_true_iff.mpr uncached)
  | outcomeFetched cached =>
    refine balanced.restage (balanced.builders_still rfl rfl) ?_ rfl rfl rfl rfl rfl
    rw [Multiset.filterMap_cons_none (f := Standing.outcomeSeat) _ _ rfl]
    exact (balanced.outcomes_cons rfl).forget (by simp [Resolver.lacks, cached])
  | enqueue first uncached busy => exact balanced.enqueue (lacks_eq_true_iff.mpr uncached) first
  | launch first uncached spare live =>
    have free : 0 < w.resolver.free := by
      simp only [Resolver.hasSpare, decide_eq_true_eq] at spare
      omega
    exact balanced.takePermit (lacks_eq_true_iff.mpr uncached) first free _
  | launchQueued next live =>
    have free : 0 < w.resolver.free := by
      apply Nat.pos_of_ne_zero
      intro none
      simp [Resolver.isNext, none] at next
    exact balanced.takePermit_queued free _
  | fetched due => exact balanced.conclude _
  | arrived due => exact (balanced.log _).conclude _
  | timedOut early late => exact balanced.conclude _

end Balanced

end LayeredConfig
