import LayeredConfig.Proofs.Resolution.Downgrading
import LayeredConfig.Proofs.Resolution.Interruption

/-!
# Nobody overlaps with anybody

One after another, nobody has looked behind a part that has not finished (`Task.InOrder`). So
whoever moves is the only reference that has begun, and what such a move keeps, every run keeps
(`Task.Runs.keeps_inOrder`). In particular no call starts, and nothing else happens, before every
call that has started is over (`Spaced.move`).
-/

namespace LayeredConfig

namespace Task

/-! ### Parts in order -/

/-- Behind a part that has not finished nobody has looked yet. -/
inductive InOrder : Task → Prop where
  | leaf (v : Value) : InOrder (.leaf v)
  | finished (v : Option Value) : InOrder (.finished v)
  | failed (e : ResolveError) : InOrder (.failed e)
  | site (inSpread : Bool) (r : Reference) (stage : Stage) : InOrder (.site inSpread r stage)
  | secret {inner : Task} (inside : InOrder inner) : InOrder (.secret inner)
  | join {shape : Shape} {parts : List Task} (each : ∀ t ∈ parts, InOrder t)
      (behind : parts.Pairwise fun t t' => t.isFinished = false → t'.Unstarted) :
      InOrder (.join shape parts)

theorem Unstarted.inOrder {t : Task} (unstarted : t.Unstarted) : t.InOrder := by
  induction unstarted with
  | leaf v => exact .leaf v
  | site inSpread r => exact .site inSpread r .fresh
  | secret _ ih => exact .secret ih
  | join _ unstarted ih =>
    exact .join ih (List.pairwise_of_forall_mem_list fun _ _ t ht _ => unstarted t ht)

theorem exists_eq_map_finished {parts : List Task} (all : ∀ t ∈ parts, t.isFinished = true) :
    ∃ vs : List (Option Value), parts = vs.map finished := by
  cases h : values? parts with
  | some vs => exact ⟨vs, values?_eq_some_iff.mp h⟩
  | none =>
    obtain ⟨t, ht, open'⟩ := values?_eq_none_iff.mp h
    rw [all t ht] at open'
    cases open'

namespace InOrder

variable {shape : Shape} {parts : List Task}

/-- The parts in front of one that may move have finished, and those behind it have not
begun. -/
theorem split (inOrder : (Task.join shape parts).InOrder) {i : Nat} {t : Task}
    (found : parts[i]? = some t)
    (turn : false = true ∨ ∀ p ∈ parts.take i, p.isFinished = true) (isOpen : t.isOver = false) :
    ∃ (vs : List (Option Value)) (rest : List Task),
      parts = vs.map Task.finished ++ t :: rest ∧ (∀ p ∈ rest, p.Unstarted) ∧
      ∀ t', parts.set i t' = vs.map Task.finished ++ t' :: rest := by
  obtain ⟨vs, same⟩ := exists_eq_map_finished (turn.resolve_left Bool.false_ne_true)
  obtain ⟨bound, there⟩ := List.getElem?_eq_some_iff.mp found
  have unfinished : t.isFinished = false := by
    simp only [isOver, Bool.or_eq_false_iff] at isOpen
    exact isOpen.1
  have whole : parts = vs.map Task.finished ++ t :: parts.drop (i + 1) := by
    rw [← same, ← there, ← List.drop_eq_getElem_cons bound, List.take_append_drop]
  refine ⟨vs, parts.drop (i + 1), whole, ?_, fun t' => ?_⟩
  · cases inOrder with
    | join each behind =>
      rw [whole, List.pairwise_append, List.pairwise_cons] at behind
      exact fun p hp => behind.2.1.1 p hp unfinished
  · rw [List.set_eq_take_append_cons_drop, if_pos bound, same]

/-- An error comes up where all parts in front of it have finished, and none behind it has
begun. -/
theorem split_of_surfaced (inOrder : (Task.join shape parts).InOrder) {e : ResolveError}
    (found : surfaced? false parts = some e) :
    ∃ (vs : List (Option Value)) (rest : List Task),
      parts = vs.map Task.finished ++ Task.failed e :: rest ∧ ∀ p ∈ rest, p.Unstarted := by
  obtain ⟨t, ht, error⟩ := exists_of_surfaced found
  obtain rfl := error?_eq_some_iff.mp error
  obtain ⟨front, rest, rfl⟩ := List.append_of_mem ht
  cases inOrder with
  | join each behind =>
    rw [List.pairwise_append, List.pairwise_cons] at behind
    obtain ⟨-, ⟨after, -⟩, across⟩ := behind
    obtain ⟨vs, rfl⟩ : ∃ vs : List (Option Value), front = vs.map Task.finished := by
      refine exists_eq_map_finished fun p hp => Bool.not_eq_false _ |>.mp fun open' => ?_
      cases across p hp _ List.mem_cons_self open'
    exact ⟨vs, rest, rfl, fun p hp => after p hp rfl⟩

end InOrder

section Moving

variable {here : Address} {t t' : Task} {w w' : World}

theorem Moves.inOrder (moves : Moves false here t w t' w') (inOrder : t.InOrder) : t'.InOrder := by
  refine moves.preserves .site .finished .failed ⟨?_, .secret⟩ ?_ inOrder
  · intro whole
    cases whole with
    | secret inside => exact inside
  · intro here shape parts i t t' w w' found turn isOpen moves whole within
    obtain ⟨vs, rest, rfl, after, set⟩ := whole.split found turn isOpen
    cases whole with
    | join each behind =>
      refine .join (forall_mem_set each (within (each t (by simp)))) ?_
      rw [set, List.pairwise_append, List.pairwise_cons]
      rw [List.pairwise_append, List.pairwise_cons] at behind
      refine ⟨behind.1, ⟨fun p hp _ => after p hp, behind.2.1.2⟩, ?_⟩
      rintro p hp q - open'
      obtain ⟨v, -, rfl⟩ := List.mem_map.mp hp
      cases open'

theorem Runs.inOrder (runs : Runs false t w t' w') (inOrder : t.InOrder) : t'.InOrder := by
  induction runs with
  | trans _ _ ih ih' => exact ih' (ih inOrder)
  | moves moves =>
    exact moves.inOrder inOrder
  | _ => exact inOrder

end Moving

/-! ### What runs in order keep -/

/-- Nobody has begun in parts that have finished, one that is over and others that have not been
looked at. -/
theorem untouched_join {shape : Shape} {vs : List (Option Value)} {t : Task} {rest : List Task}
    (atEnd : t.isOver = true) (after : ∀ p ∈ rest, p.Unstarted) :
    (Task.join shape (vs.map finished ++ t :: rest)).Untouched false := by
  intro here s hs
  rw [sites_join] at hs
  obtain ⟨i, p, found, inside⟩ := part_of_mem_sitesOf hs
  have hp := List.mem_of_getElem? found
  rw [List.mem_append, List.mem_cons] at hp
  rcases hp with hp | rfl | hp
  · obtain ⟨v, -, rfl⟩ := List.mem_map.mp hp
    simp at inside
  · simp [sites_of_isOver atEnd] at inside
  · exact (after p hp).untouched _ s inside

/-- Beside a part that may move, nobody has begun. -/
theorem InOrder.sites_part {shape : Shape} {parts : List Task}
    (inOrder : (Task.join shape parts).InOrder) {i : Nat} {t : Task} (found : parts[i]? = some t)
    (turn : false = true ∨ ∀ p ∈ parts.take i, p.isFinished = true) (isOpen : t.isOver = false)
    (here : Address) :
    ∃ F : Multiset Standing, (∀ s ∈ F, s.stage = .fresh) ∧
      (∀ C, C + sites false here (.join shape parts)
        = C + F + sites false (⟨takeTurns false parts, i⟩ :: here) t) ∧
      ∀ C t', C + sites false here (.join shape (parts.set i t'))
        = C + F + sites false (⟨takeTurns false parts, i⟩ :: here) t' := by
  obtain ⟨F, census, census'⟩ := @sites_join_set false shape _ _ _ found here
  obtain ⟨vs, rest, -, after, set⟩ := inOrder.split found turn isOpen
  refine ⟨F, fun s hs => ?_, census, census'⟩
  -- The others stand where they would stand if this part had finished.
  have there := census' 0 (.finished none)
  rw [sites_finished, zero_add, zero_add, add_zero, set] at there
  exact untouched_join rfl after here s (there ▸ hs)

/-- What every step of a run keeps in which nobody moves beside somebody who has begun. -/
structure EnduresInOrder (I : Multiset Standing → World → Prop) : Prop where
  turn : ∀ S w f, I S w → I S (World.plan w f)
  move : ∀ {C here r stage w p w'}, (∀ s ∈ C, s.stage = .fresh) → I (⟨here, r, stage⟩ ::ₘ C) w →
    Site.Move r here stage w p w' → I (p.among here r C) w'
  warn : ∀ S w e, (∀ s ∈ S, s.stage = .fresh) → I S w → I S (World.log w (.downgraded e w.now))
  drop : ∀ C here r w, I (⟨here, r, .fresh⟩ ::ₘ C) w → I C w
  wait : ∀ S w moment, I S w → w.now < moment →
    (∀ s ∈ S, ∀ x ∈ Site.moments s.stage, moment ≤ x) → I S { w with now := moment }
  strike : ∀ S w, I S w → w.context.isStruck w.now = true →
    I S { w with context := w.context.cancel }

section Keeping

variable {here : Address} {t t' : Task} {w w' : World} {I : Multiset Standing → World → Prop}

theorem Moves.keeps_inOrder (endures : EnduresInOrder I) (moves : Moves false here t w t' w')
    (inOrder : t.InOrder) {C : Multiset Standing} (fresh : ∀ s ∈ C, s.stage = .fresh)
    (before : I (C + t.sites false here) w) : I (C + t'.sites false here) w' := by
  induction moves generalizing C with
  | rest => exact before
  | turn _ _ _ f => exact endures.turn _ _ f before
  | trans first next ih ih' =>
    exact ih' (first.inOrder inOrder) fresh (ih inOrder fresh before)
  | leaf =>
    rw [sites_leaf] at before
    rwa [sites_finished]
  | stop =>
    rw [sites_leaf] at before
    rwa [sites_failed]
  | @site here inSpread r stage w w' p move =>
    rw [sites_site, add_comm, Multiset.singleton_add] at before
    have after := endures.move fresh before move
    cases p with
    | waiting stage =>
      rw [ofProgress, sites_site, add_comm, Multiset.singleton_add]
      exact after
    | settled result =>
      cases result with
      | ok v =>
        rw [ofProgress, sites_finished, add_zero]
        exact after
      | error e =>
        simp only [ofProgress]
        split
        · rw [sites_finished, add_zero]
          exact endures.warn _ _ _ fresh after
        · rw [sites_failed, add_zero]
          exact after
  | @secret here inner inner' w w' moves tidy ih =>
    cases inOrder with
    | secret inside =>
      rw [sites_secret] at before
      rw [sites_inSecret]
      exact ih inside fresh before
  | @part here shape parts i t t' w w' found calm turn isOpen moves tidy ih =>
    obtain ⟨F, others, census, census'⟩ := inOrder.sites_part found turn isOpen here
    rw [census] at before
    rw [census']
    cases inOrder with
    | join each behind =>
      exact ih (each t (List.mem_of_getElem? found))
        (fun s hs => (Multiset.mem_add.mp hs).elim (fresh s) (others s)) before
  | close =>
    rw [sites_ofPolled]
    exact before
  | @fail here shape parts w e found =>
    obtain ⟨vs, rest, rfl, after⟩ := inOrder.split_of_surfaced found
    rw [sites_failed, add_zero]
    refine (release_drops (J := fun S w => (∀ s ∈ S, s.stage = .fresh) ∧ I S w)
      (fun S w f h => ⟨h.1, endures.turn S w f h.2⟩) ?_ _ here C w ⟨?_, before⟩).2
    · intro C here r stage w h
      have all := Multiset.forall_mem_cons.mp h.1
      obtain rfl : stage = .fresh := all.1
      exact ⟨all.2, endures.drop C here r w h.2⟩
    · intro s hs
      rcases Multiset.mem_add.mp hs with hs | hs
      · exact fresh s hs
      · exact untouched_join rfl after here s hs

/-- What every step in order keeps, every run that goes in order keeps. -/
theorem Runs.keeps_inOrder (endures : EnduresInOrder I) (runs : Runs false t w t' w')
    (inOrder : t.InOrder) (before : I (t.sites false []) w) : I (t'.sites false []) w' := by
  induction runs with
  | rest => exact before
  | trans first next ih ih' =>
    exact ih' (first.inOrder inOrder) (ih inOrder before)
  | moves moves =>
    simpa using moves.keeps_inOrder (C := 0) endures inOrder (by simp) (by simpa using before)
  | wait later waits due context =>
    exact endures.wait _ _ _ before later due
  | strike struck => exact endures.strike _ _ before struck

end Keeping

end Task

/-! ### Calls apart -/

/-- When an event happened. -/
def Event.time : Event → Nat
  | .initStarted _ _ time => time
  | .fetchStarted _ _ time => time
  | .fetchEnded _ _ time => time
  | .downgraded _ time => time

/-- How long a call goes on where it may take no longer than a limit. -/
def Call.span {α : Type} (limit : Option Nat) (call : Call α) : Nat :=
  match limit with
  | some limit => min limit call.delay
  | none => call.delay

/-- How long a call takes that an event starts after a trace. A run that has come from one world
to another has been asked for the providers that are declared in the first and built in the
second. -/
inductive World.Takes (w w' : World) (before : Trace) : Event → Nat → Prop where
  | init {name providerType : String} {config : Fields} {t : ProviderType} {time : Nat}
      (bound : Assoc.get? w.registry.bindings name = some (.declared providerType config none))
      (known : Assoc.get? w.registry.types providerType = some t) :
      Takes w w' before (.initStarted name config time) (t.init before name config).delay
  | fetch {name : String} {path : List String} {p : Provider} {time : Nat}
      (provides : w'.registry.Provides name p) :
      Takes w w' before (.fetchStarted name path time)
        ((p.fetch before path).span w.resolver.policy.fetchTimeout)

/-- Whether the calls of a run do not overlap: whatever happens after the start of a call
happens when it is over, and the run ends then. -/
def World.IsSerial (w w' : World) (events : Trace) : Prop :=
  ∀ later e earlier, events = later ++ e :: earlier → ∀ time ∈ e.startTime?,
    ∃ d, w.Takes w' (earlier ++ w.trace) e d ∧ time + d ≤ w'.now ∧
      ∀ e' ∈ later, time + d ≤ e'.time

/-- From which moments on something may happen: now, unless a call is under way, which has to
come to its end first. -/
def IsFree (S : Multiset Standing) (w : World) (m : Nat) : Prop :=
  (∃ s ∈ S, m ∈ Site.moments s.stage) ∨ m = w.now ∧ ∀ s ∈ S, s.stage.isUnderway = false

/-- Every call that has started is over before the next event, and before anything else may
happen. -/
structure Spaced (w₀ : World) (events : Trace) (S : Multiset Standing) (w : World) : Prop where
  trace : w.trace = events ++ w₀.trace
  apart : ∀ later e earlier, events = later ++ e :: earlier → ∀ time ∈ e.startTime?,
    ∃ d, w₀.Takes w (earlier ++ w₀.trace) e d ∧ (∀ e' ∈ later, time + d ≤ e'.time) ∧
      ∀ m, IsFree S w m → time + d ≤ m

section Free

variable {here : Address} {r : Reference} {stage : Stage} {C : Multiset Standing} {w w' : World}
  {p : Progress} {m : Nat}

theorem isFree_of_fresh (fresh : ∀ s ∈ C, s.stage = .fresh) : IsFree C w m ↔ m = w.now := by
  have idle : ∀ s ∈ C, s.stage.isUnderway = false := fun s hs => by rw [fresh s hs]; rfl
  constructor
  · rintro (⟨s, hs, inside⟩ | ⟨now, -⟩)
    · rw [fresh s hs] at inside
      cases inside
    · exact now
  · exact fun now => .inr ⟨now, idle⟩

theorem isFree_cons (fresh : ∀ s ∈ C, s.stage = .fresh) :
    IsFree (⟨here, r, stage⟩ ::ₘ C) w m ↔
      m ∈ Site.moments stage ∨ m = w.now ∧ stage.isUnderway = false := by
  constructor
  · rintro (⟨s, hs, inside⟩ | ⟨now, idle⟩)
    · rcases Multiset.mem_cons.mp hs with rfl | hs
      · exact .inl inside
      · rw [fresh s hs] at inside
        cases inside
    · exact .inr ⟨now, idle _ (Multiset.mem_cons_self _ _)⟩
  · rintro (inside | ⟨now, idle⟩)
    · exact .inl ⟨_, Multiset.mem_cons_self _ _, inside⟩
    · refine .inr ⟨now, Multiset.forall_mem_cons.mpr ⟨idle, fun s hs => ?_⟩⟩
      rw [fresh s hs]
      rfl

/-- A fetch that has just started is under way until it ends or reaches its limit. -/
theorem Site.span_le_of_underway {call : Call Value}
    (inside : m ∈ Site.moments (Site.underway call w)) :
    w.now + call.span w.resolver.policy.fetchTimeout ≤ m := by
  rw [Site.underway, Site.moments, List.mem_cons, Option.mem_toList] at inside
  generalize w.resolver.policy.fetchTimeout = limit at inside ⊢
  cases limit with
  | none =>
    obtain rfl := inside.resolve_right (by simp)
    exact le_rfl
  | some limit =>
    rcases inside with rfl | atLimit
    · exact Nat.add_le_add_left (Nat.min_le_right _ _) _
    · obtain rfl : w.now + limit = m := Option.some.inj atLimit
      exact Nat.add_le_add_left (Nat.min_le_left _ _) _

/-- No move lets anything happen earlier. -/
theorem Site.Move.isFree_le (fresh : ∀ s ∈ C, s.stage = .fresh) (live : w.interruption? = none)
    (move : Site.Move r here stage w p w') (free : IsFree (p.among here r C) w' m) :
    ∃ m' ≤ m, IsFree (⟨here, r, stage⟩ ::ₘ C) w m' := by
  -- Where no call was under way, nothing can happen before now.
  have idle : stage.isUnderway = false → w.now ≤ m →
      ∃ m' ≤ m, IsFree (⟨here, r, stage⟩ ::ₘ C) w m' :=
    fun idle le => ⟨w.now, le, (isFree_cons fresh).mpr (.inr ⟨rfl, idle⟩)⟩
  have atEnd : ∀ x ∈ Site.moments stage, x ≤ w.now → m = w.now →
      ∃ m' ≤ m, IsFree (⟨here, r, stage⟩ ::ₘ C) w m' :=
    fun x hx due now => ⟨x, now ▸ due, (isFree_cons fresh).mpr (.inl hx)⟩
  have now : (∀ stage', p = .waiting stage' → Site.moments stage' = []) → m = w.now := by
    intro none
    rw [← move.sameMoment.1]
    cases p with
    | settled result => exact (isFree_of_fresh fresh).mp free
    | waiting stage' =>
      rcases (isFree_cons fresh).mp free with inside | ⟨now, -⟩
      · rw [none stage' rfl] at inside
        cases inside
      · exact now
  cases move with
  | turn => exact ⟨m, le_rfl, free⟩
  | stop interrupted =>
    rw [live] at interrupted
    cases interrupted
  | build =>
    refine idle rfl ?_
    rcases (isFree_cons fresh).mp free with inside | ⟨now, -⟩
    · simp only [moments, List.mem_singleton] at inside
      omega
    · exact now.ge
  | launch | launchQueued =>
    refine idle rfl ?_
    rcases (isFree_cons fresh).mp free with inside | ⟨now, -⟩
    · exact (Nat.le_add_right _ _).trans (span_le_of_underway inside)
    · exact now.ge
  | built due => exact atEnd _ (by simp [moments]) due (now (by simp [moments]))
  | fetched due => exact atEnd _ (by simp [moments]) due (now (by simp))
  | arrived due => exact atEnd _ (by simp [moments]) due (now (by simp))
  | @timedOut _ _ _ limit early late =>
    cases limit with
    | none => cases late
    | some limit =>
      exact atEnd limit (by simp [moments]) (by simpa [Context.reached] using late) (now (by simp))
  | _ => exact idle rfl (now (by simp [moments])).ge

end Free

namespace Spaced

variable {w₀ w w' : World} {events : Trace} {S S' C : Multiset Standing} {here : Address}
  {r : Reference} {stage : Stage} {p : Progress}

/-- Nothing has happened. -/
theorem refl (S : Multiset Standing) (w : World) : Spaced w [] S w :=
  ⟨rfl, fun later e earlier same => by simp at same⟩

theorem takes_mono (grows : w.Grows w') {before : Trace} {e : Event} {d : Nat}
    (takes : w₀.Takes w before e d) : w₀.Takes w' before e d := by
  cases takes with
  | init bound known => exact .init bound known
  | fetch provides => exact .fetch (provides.mono grows)

/-- Nothing happens, and nothing may happen earlier. -/
theorem onward (spaced : Spaced w₀ events S w) (trace : w'.trace = w.trace) (grows : w.Grows w')
    (free : ∀ m, IsFree S' w' m → ∃ m' ≤ m, IsFree S w m') : Spaced w₀ events S' w' := by
  refine ⟨trace.trans spaced.trace, fun later e earlier same time start => ?_⟩
  obtain ⟨d, takes, after, ended⟩ := spaced.apart later e earlier same time start
  refine ⟨d, takes_mono grows takes, after, fun m hm => ?_⟩
  obtain ⟨m', le, before⟩ := free m hm
  exact (ended m' before).trans le

/-- Something happens that may happen by then. If it is the start of a call, then nothing else
may happen before the call is over. -/
theorem extend (spaced : Spaced w₀ events S w) {e : Event} (trace : w'.trace = e :: w.trace)
    (grows : w.Grows w') (free : ∀ m, IsFree S' w' m → ∃ m' ≤ m, IsFree S w m')
    (due : ∃ m ≤ e.time, IsFree S w m)
    (new : ∀ time ∈ e.startTime?,
      ∃ d, w₀.Takes w' w.trace e d ∧ ∀ m, IsFree S' w' m → time + d ≤ m) :
    Spaced w₀ (e :: events) S' w' := by
  refine ⟨by rw [trace, spaced.trace, List.cons_append], ?_⟩
  intro later e' earlier same time start
  cases later with
  | nil =>
    cases same
    obtain ⟨d, takes, ended⟩ := new time start
    exact ⟨d, spaced.trace ▸ takes, by simp, ended⟩
  | cons e'' later =>
    obtain ⟨rfl, same'⟩ := List.cons.inj same
    obtain ⟨d, takes, after, ended⟩ := spaced.apart later e' earlier same' time start
    refine ⟨d, takes_mono grows takes, ?_, fun m hm => ?_⟩
    · obtain ⟨m, le, hm⟩ := due
      exact List.forall_mem_cons.mpr ⟨(ended m hm).trans le, after⟩
    · obtain ⟨m', le, before⟩ := free m hm
      exact (ended m' before).trans le

/-- Whoever moves while the others have not begun leaves the calls apart. -/
theorem move {U : Reference → Prop} (spaced : Spaced w₀ events (⟨here, r, stage⟩ ::ₘ C) w)
    (balanced : Balanced (⟨here, r, stage⟩ ::ₘ C) w)
    (rooted : Rooted w₀.registry w₀.resolver.policy U (⟨here, r, stage⟩ ::ₘ C) w)
    (provided : ∀ p ∈ stage.provider?, w.registry.Provides r.alias p)
    (fresh : ∀ s ∈ C, s.stage = .fresh) (live : w.interruption? = none)
    (move : Site.Move r here stage w p w') :
    ∃ events', Spaced w₀ events' (p.among here r C) w' := by
  have grows := move.grows balanced
  have free : ∀ m, IsFree (p.among here r C) w' m →
      ∃ m' ≤ m, IsFree (⟨here, r, stage⟩ ::ₘ C) w m' := fun _ => move.isFree_le fresh live
  have idle : stage.isUnderway = false →
      ∃ m ≤ w.now, IsFree (⟨here, r, stage⟩ ::ₘ C) w m :=
    fun idle => ⟨w.now, le_rfl, (isFree_cons fresh).mpr (.inr ⟨rfl, idle⟩)⟩
  have launched : ∀ {call : Call Value} {w' : World} {m : Nat},
      IsFree (⟨here, r, Site.underway call w⟩ ::ₘ C) w' m →
      w.now + call.span w₀.resolver.policy.fetchTimeout ≤ m := by
    intro call w' m hm
    rcases (isFree_cons fresh).mp hm with inside | ⟨-, ⟨⟩⟩
    exact rooted.policy ▸ Site.span_le_of_underway inside
  cases move with
  | stop => exact ⟨_, spaced.onward (Site.surrender_trace r here stage w) grows free⟩
  | build unbuilt first _ known =>
    refine ⟨_, spaced.extend rfl grows free (idle rfl) fun time start => ?_⟩
    cases start
    refine ⟨_, .init (rooted.registry.unbuilt unbuilt) (rooted.registry.types ▸ known), ?_⟩
    intro m hm
    rcases (isFree_cons fresh).mp hm with inside | ⟨-, ⟨⟩⟩
    exact (List.mem_singleton.mp inside).ge
  | launch | launchQueued =>
    refine ⟨_, spaced.extend rfl grows free (idle rfl) fun time start => ?_⟩
    cases start
    exact ⟨_, .fetch (provided _ rfl), fun m hm => launched hm⟩
  | @arrived _ wake _ _ due =>
    refine ⟨_, spaced.extend rfl grows free ⟨wake, due, ?_⟩ fun time start => by cases start⟩
    exact (isFree_cons fresh).mpr (.inl (by simp [Site.moments]))
  | _ => exact ⟨_, spaced.onward rfl grows free⟩

/-- When nobody is left, every call is over. -/
theorem isSerial (spaced : Spaced w₀ events 0 w) : w₀.IsSerial w events := by
  intro later e earlier same time start
  obtain ⟨d, takes, after, ended⟩ := spaced.apart later e earlier same time start
  exact ⟨d, takes, ended _ (.inr ⟨rfl, by simp⟩), after⟩

end Spaced

end LayeredConfig
