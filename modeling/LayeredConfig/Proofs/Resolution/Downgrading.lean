import LayeredConfig.Proofs.Resolution.Fetches
import LayeredConfig.Proofs.Resolution.Leniency
import LayeredConfig.Proofs.Resolution.Reuse
import LayeredConfig.Proofs.Resolution.Warnings

/-!
Missing data is given up exactly where it is missing.

Where missing data is allowed, no run fails for want of it (`Task.Runs.failsFor`), and one
that comes to a value has warned of every reference without data, as often as it occurs.
Where it is not allowed, nothing warns (`Task.Runs.silent`). Whether a reference has data is
for the run itself to find out: what it has been told of it, its last world still says
(`Sourced.agreesWith`).
-/

namespace LayeredConfig

/-! ### Errors of references -/

/-- The errors that say that there is no data behind a reference. -/
inductive ResolveError.Misses (r : Reference) : ResolveError → Prop where
  | notRegistered : Misses r (.notRegistered r)
  | unresolved (cause : Cause) : Misses r (.unresolved r cause)

/-- A text that names a reference, by its alias in quotes or together with its path, and then
says where it stands. -/
def Reference.IsNamedIn (r : Reference) (text : String) : Prop :=
  ∃ front name back, (name = Text.quoted r.alias ∨ name = r.text) ∧
    text = front ++ name ++ " at " ++ r.origin.text ++ back

theorem ResolveError.Misses.isNamedIn {r : Reference} {e : ResolveError} (misses : e.Misses r) :
    r.IsNamedIn e.message := by
  cases misses with
  | notRegistered =>
    have text : ResolveError.message (.notRegistered r)
        = "provider not registered for alias " ++ Text.quoted r.alias ++ " at " ++ r.origin.text :=
      rfl
    exact ⟨_, _, "", .inl rfl, by rw [text, String.append_empty]⟩
  | unresolved cause =>
    have text : ResolveError.message (.unresolved r cause)
        = "unable to resolve reference " ++ r.text ++ " at " ++ r.origin.text ++ ": "
          ++ cause.message :=
      rfl
    exact ⟨_, _, ": " ++ cause.message, .inr rfl, by rw [text, String.append_assoc]⟩

/-- What is said of a reference without data is an error of that reference. -/
theorem World.Tells.misses {w : World} {r : Reference} {e : ResolveError}
    (told : w.Tells r (.error e)) : e.Misses r := by
  generalize came : Except.error e = x at told
  cases told with
  | @outcome o cached =>
    unfold Site.settle at came
    split at came
    · cases came
      exact .unresolved _
    · split at came
      · cases came
      · cases came
        exact .unresolved _
  | unbound free =>
    cases came
    exact .notRegistered
  | refused built =>
    cases came
    exact .unresolved _

/-- The warnings that references are due, where `lookup` says what is behind each of them. -/
def Reference.dueWarnings (lookup : Reference → Except ResolveError Value) (rs : List Reference) :
    List String :=
  rs.filterMap fun r =>
    match lookup r with
    | .ok _ => none
    | .error e => some (e.message ++ "; using null")

/-- One warning is due for each reference without data. -/
theorem Reference.length_dueWarnings (lookup : Reference → Except ResolveError Value)
    (rs : List Reference) :
    (dueWarnings lookup rs).length = rs.countP fun r => (lookup r).toOption.isNone := by
  rw [dueWarnings, List.length_filterMap_eq_countP]
  refine congrArg (List.countP · rs) (funext fun r => ?_)
  cases lookup r <;> rfl

/-- What is due for references without data, by why they have none. -/
theorem Answers.map_failures (answers : Answers) (rs : List Reference) :
    (answers.failures ↑rs).map (fun e => e.message ++ "; using null")
      = ↑(Reference.dueWarnings answers.lookup rs) := by
  rw [failures, Reference.dueWarnings, Multiset.filterMap_coe, Multiset.map_coe,
    List.map_filterMap]
  refine congrArg _ (congrArg (List.filterMap · rs) (funext fun r => ?_))
  cases answers.lookup r <;> rfl

/-! ### What a resolver has been told -/

/-- What aliases stand for, by what a registry has built and a resolver keeps. -/
def World.answers (w : World) : Answers := fun name =>
  match Assoc.get? w.registry.bindings name with
  | none => none
  | some (.declared _ _ (some (.error e))) => some (.error e)
  | some _ =>
    some (.ok fun path => (Assoc.get? w.resolver.cache (cacheKey name path)).getD (.ok .null))

/-- A resolver keeps nothing for an alias but what its provider has produced, so all that is
said of a plain reference is one thing. -/
theorem Sourced.agreesWith {U : Reference → Prop} {S : Multiset Standing} {w : World}
    (sourced : Sourced U S w) (plain : ∀ r, U r → r.IsPlain) : w.AgreesWith w.answers U := by
  intro r used x told
  cases told with
  | @outcome o cached =>
    -- Who produced the outcome has the alias of `r`, so nobody says that there is no provider.
    obtain ⟨r', used', same, p, provides, -⟩ := sourced.cache _ _ cached
    rw [((plain r' used').eq_of_key_eq (plain r used) same).1] at provides
    have kept : Site.settle r o
        = Site.settle r ((Assoc.get? w.resolver.cache r.key).getD (.ok .null)) := by
      rw [cached, Option.getD_some]
    rcases provides with bound | ⟨_, _, bound⟩
    · rw [Answers.lookup, World.answers, bound]
      exact kept
    · rw [Answers.lookup, World.answers, bound]
      exact kept
  | unbound free => rw [Answers.lookup, World.answers, free]
  | refused built => rw [Answers.lookup, World.answers, built]

/-! ### Why runs fail -/

theorem Site.Move.policy {r : Reference} {here : Address} {stage : Stage} {w w' : World}
    {p : Progress} (move : Site.Move r here stage w p w') :
    w'.resolver.policy = w.resolver.policy := by
  cases move with
  | stop interrupted => cases stage <;> rfl
  | _ => rfl

/-- The policy never changes. -/
theorem Task.policy_endures (rules : Policy) :
    Endures (fun _ w => w.resolver.policy = rules) fun _ w => w.resolver.policy = rules :=
  Persists.endures
    { turn := fun _ _ _ h => h
      move := fun h move => move.policy.trans h
      warn := fun _ _ _ h => h
      drop := fun _ _ _ stage _ h => by cases stage <;> exact h
      wait := fun _ _ _ h _ _ => h
      strike := fun _ _ h _ => h }

namespace Task

variable {parallel : Bool} {here : Address} {t t' : Task} {w w' : World}

theorem Moves.policy (moves : Moves parallel here t w t' w') :
    w'.resolver.policy = w.resolver.policy :=
  moves.keeps_all (C := 0) (policy_endures w.resolver.policy).toKeeps rfl

theorem Runs.policy (runs : Runs parallel t w t' w') : w'.resolver.policy = w.resolver.policy :=
  runs.keeps_all (policy_endures w.resolver.policy) rfl

/-- A task in which nothing has failed but for reasons of a kind. -/
inductive FailsFor (kind : ResolveError → Prop) : Task → Prop where
  | leaf (v : Value) : FailsFor kind (.leaf v)
  | finished (v : Option Value) : FailsFor kind (.finished v)
  | failed {e : ResolveError} (reason : kind e) : FailsFor kind (.failed e)
  | site (inSpread : Bool) (r : Reference) (stage : Stage) :
      FailsFor kind (.site inSpread r stage)
  | secret {inner : Task} (inside : FailsFor kind inner) : FailsFor kind (.secret inner)
  | join {shape : Shape} {parts : List Task} (all : ∀ t ∈ parts, FailsFor kind t) :
      FailsFor kind (.join shape parts)

namespace FailsFor

variable {kind : ResolveError → Prop}

theorem of_sound (sound : t.Sound) : t.FailsFor kind := by
  induction sound with
  | leaf v => exact .leaf v
  | finished v => exact .finished v
  | site inSpread r stage => exact .site inSpread r stage
  | secret _ ih => exact .secret ih
  | join _ ih => exact .join ih

theorem inSecret (inside : t.FailsFor kind) : (inSecret t).FailsFor kind :=
  inSecret_cases (fun _ => .secret inside) .finished fun _ same => same ▸ inside

/-- Drawing parts together fails for nothing but their spreads. -/
theorem ofPolled (spread : ∀ e, kind (.spread e)) {shape : Shape} {parts : List Task}
    (all : ∀ t ∈ parts, t.FailsFor kind) : (ofPolled shape parts).FailsFor kind := by
  unfold Task.ofPolled
  split
  · exact .join all
  · rename_i vs finished
    cases closed : shape.close vs with
    | ok v => exact .finished _
    | error e =>
      obtain ⟨e', rfl⟩ := Shape.eq_spread_of_close closed
      exact .failed (spread e')

end FailsFor

section Failing

variable {kind : ResolveError → Prop}

/-- Where missing data is allowed, a reference fails for nothing but an interruption. -/
theorem failsFor_ofProgress {r : Reference} {stage : Stage} {p : Progress} {inSpread : Bool}
    (move : Site.Move r here stage w p w') (lenient : w.resolver.policy.allowMissing = true)
    (stop : (ofProgress inSpread r p w').2.interruption?.isSome = true →
      ∀ i, kind (.interrupted i)) :
    (ofProgress inSpread r p w').1.FailsFor kind := by
  cases p with
  | waiting stage' => exact .site _ _ _
  | settled result =>
    cases result with
    | ok v => exact .finished _
    | error e =>
      rcases move.tells with told | ⟨i, interrupted, same⟩
      · have other : e.isInterruption = false := by cases told.misses <;> rfl
        simp only [ofProgress, move.policy, lenient, other, Bool.not_false, Bool.and_self, if_true]
        exact .finished _
      · cases same
        have failed : ofProgress inSpread r (.settled (.error (.interrupted i))) w'
            = (.failed (.interrupted i), w') := by
          simp [ofProgress, ResolveError.isInterruption]
        rw [failed] at stop ⊢
        exact .failed (stop (move.sameMoment.interruption (by simp [interrupted])) i)

/-- Where missing data is allowed, moves fail for nothing but spreads and interruptions. -/
theorem Moves.failsFor (moves : Moves parallel here t w t' w')
    (lenient : w.resolver.policy.allowMissing = true) (spread : ∀ e, kind (.spread e))
    (stop : w'.interruption?.isSome = true → ∀ i, kind (.interrupted i))
    (before : t.FailsFor kind) : t'.FailsFor kind := by
  induction moves with
  | rest => exact before
  | turn => exact before
  | trans first next ih ih' =>
    -- Who is interrupted stays so, which is why the end alone needs to allow for it.
    have later := ih lenient (fun h => stop (next.sameMoment.interruption h)) before
    exact ih' (by rw [first.policy, lenient]) stop later
  | leaf => exact .finished _
  | @stop here v w i interrupted => exact .failed (stop (by simp [interrupted]) i)
  | @site here inSpread r stage w w' p move =>
    exact failsFor_ofProgress move lenient stop
  | secret moves tidy ih =>
    cases before with
    | secret inside => exact (ih lenient stop inside).inSecret
  | @part here shape parts i t t' w w' found calm turn isOpen moves tidy ih =>
    cases before with
    | join all =>
      exact .join (forall_mem_set all (ih lenient stop (all t (List.mem_of_getElem? found))))
  | close =>
    cases before with
    | join all => exact .ofPolled spread all
  | fail found =>
    obtain ⟨t, ht, failed⟩ := exists_of_surfaced found
    rw [error?_eq_some_iff] at failed
    subst failed
    cases before with
    | join all =>
      cases all _ ht with
      | failed reason => exact .failed reason

theorem Runs.failsFor (runs : Runs parallel t w t' w')
    (lenient : w.resolver.policy.allowMissing = true) (spread : ∀ e, kind (.spread e))
    (stop : w'.interruption?.isSome = true → ∀ i, kind (.interrupted i))
    (before : t.FailsFor kind) : t'.FailsFor kind := by
  induction runs with
  | trans first next ih ih' =>
    have later := ih lenient (fun h => stop (next.interruption h)) before
    exact ih' (by rw [first.policy, lenient]) stop later
  | moves moves => exact moves.failsFor lenient spread stop before
  | _ => exact before

end Failing

/-! ### When nothing warns -/

/-- Where missing data is not allowed, nothing is given up. -/
theorem Moves.silent (moves : Moves parallel here t w t' w') (strict : w.IsStrict) :
    w.Adds (fun e => e.downgraded? = none) w' := by
  induction moves with
  | trans first next ih ih' => exact (ih strict).trans (ih' (by rwa [World.IsStrict, first.policy]))
  | @site here inSpread r stage w w' p move =>
    have same : (ofProgress inSpread r p w').2 = w' := by
      have strict' : w'.resolver.policy.allowMissing = false := by rwa [move.policy]
      unfold ofProgress
      simp only [strict', Bool.false_and, Bool.false_eq_true, if_false]
      split <;> rfl
    rw [same]
    exact move.adds
  | secret moves tidy ih => exact ih strict
  | part found calm turn isOpen moves tidy ih => exact ih strict
  | fail found => exact (World.Adds.refl _ _).onward (release_trace _ _ _)
  | _ => exact (World.Adds.refl _ _).onward rfl

theorem Runs.silent (runs : Runs parallel t w t' w') (strict : w.IsStrict) :
    w.Adds (fun e => e.downgraded? = none) w' := by
  induction runs with
  | trans first next ih ih' => exact (ih strict).trans (ih' (by rwa [World.IsStrict, first.policy]))
  | moves moves => exact moves.silent strict
  | _ => exact (World.Adds.refl _ _).onward rfl

/-- Nothing has failed before a task begins. -/
theorem Unstarted.sound (unstarted : t.Unstarted) : t.Sound := by
  induction unstarted with
  | leaf v => exact .leaf v
  | site inSpread r => exact .site inSpread r .fresh
  | secret _ ih => exact .secret ih
  | join _ _ ih => exact .join ih

end Task

/-! ### Runs -/

theorem Trace.warnings_append (events start : Trace) :
    Trace.warnings (events ++ start) = start.warnings ++ events.warnings := by
  simp [Trace.warnings]

namespace World

variable {w : World} {v : Value} {U : Reference → Prop}

theorem IsIdle.allowing (idle : w.IsIdle) (b : Bool) : (w.allowing b).IsIdle :=
  ⟨idle.1, idle.2, idle.3, idle.4⟩

/-- Where missing data is allowed, a run fails for nothing but a spread or an interruption. -/
theorem resolve_failsFor (idle : w.IsIdle) (lenient : w.resolver.policy.allowMissing = true) :
    ∃ x w', w.resolve v = (some x, w') ∧ ∀ e, x = .error e →
      (∃ e', e = .spread e') ∨ (∃ i, e = .interrupted i) ∧ w'.interruption?.isSome = true := by
  have unstarted := Task.Unstarted.ofValue v
  obtain ⟨t', w', x, ran, result, runs⟩ := runTask_ends (idle.fit _ unstarted)
  refine ⟨x, _, ran, ?_⟩
  rintro e rfl
  have fails : t'.FailsFor fun e => (∃ e', e = .spread e') ∨
      (∃ i, e = .interrupted i) ∧ w'.interruption?.isSome = true :=
    runs.failsFor lenient (fun e => .inl ⟨e, rfl⟩) (fun h i => .inr ⟨⟨i, rfl⟩, h⟩)
      (.of_sound unstarted.sound)
  cases fails with
  | failed reason =>
    cases result
    exact reason
  | _ => cases result

/-- Where missing data is not allowed, a run warns of nothing. -/
theorem resolve_silent (idle : w.IsIdle) (strict : w.IsStrict) :
    (w.resolve v).2.trace.warnings = w.trace.warnings := by
  obtain ⟨t', w', x, ran, -, runs⟩ := runTask_ends (idle.fit _ (Task.Unstarted.ofValue v))
  obtain ⟨events, trace, none⟩ := runs.silent strict
  have silent : Trace.warnings events = [] := by
    rw [Trace.warnings, List.filterMap_eq_nil_iff]
    intro e he
    rw [e.warning?_eq, none e (List.mem_reverse.mp he), Option.map_none]
  rw [resolve, ran]
  show w'.trace.warnings = _
  rw [trace, Trace.warnings_append, silent, List.append_nil]

/-- What the last world of a run says of references is one thing. -/
theorem resolve_agreesWith (idle : w.IsIdle) (sourced : Sourced U 0 w)
    (plain : ∀ r, U r → r.IsPlain) (used : ∀ r ∈ v.references, U r) :
    (w.resolve v).2.AgreesWith (w.resolve v).2.answers U := by
  have unstarted := Task.Unstarted.ofValue v
  have fit := idle.fit w.resolver.policy.isParallel unstarted
  obtain ⟨t', w', x, ran, -, runs⟩ := runTask_ends fit
  have before : Sourced U ((Task.ofValue v).sites w.resolver.policy.isParallel []) w :=
    sourced.arrive (unstarted.untouched []) fun s hs =>
      used _ (Task.mem_references.mp ⟨s, hs, rfl⟩)
  have after := (runs.keeps_all (Sourced.endures U) ⟨fit.balanced, before⟩).2
  have retains : w'.Retains { w' with agenda := {} } := .of_grows (.of_same rfl rfl rfl)
  rw [resolve, ran]
  exact (after.mono (fun _ hs => hs) retains rfl rfl).agreesWith plain

/-- A run that comes to a value has found out of every reference whether it has data, and sent a
warning for each occurrence of one that has none. -/
theorem resolve_warns (idle : w.IsIdle) (sourced : Sourced U 0 w) (plain : ∀ r, U r → r.IsPlain)
    (used : ∀ r ∈ v.references, U r) {u : Value} (ended : (w.resolve v).1 = some (.ok u)) :
    ∃ lookup : Reference → Except ResolveError Value,
      (∀ r ∈ v.references, ∀ x, (w.resolve v).2.Tells r x ↔ x = lookup r) ∧
      ∃ sent, (w.resolve v).2.trace.warnings = w.trace.warnings ++ sent ∧
        sent.Perm (Reference.dueWarnings lookup v.references) := by
  have agrees := resolve_agreesWith idle sourced plain used
  obtain ⟨⟨events, trace, -⟩, complete⟩ := downgrades_of_agrees idle used agrees
  refine ⟨(w.resolve v).2.answers.lookup, ?_, Trace.warnings events, ?_, ?_⟩
  · intro r hr x
    obtain ⟨y, told⟩ := exists_tells_of_resolve idle ended hr
    constructor
    · exact agrees r (used r hr) x
    · rintro rfl
      rwa [agrees r (used r hr) y told] at told
  · rw [trace, Trace.warnings_append]
  · have whole := (w.resolve v).2.warnings_eq
    rw [complete u ended, Multiset.map_add, ← w.warnings_eq, trace, Trace.warnings_append,
      ← Multiset.coe_add, Answers.map_failures] at whole
    exact Multiset.coe_eq_coe.mp (add_left_cancel whole)

/-- Missing data is given up exactly where it is missing. Where that is allowed, a run that is
not interrupted fails for nothing but a spread that cannot be composed. If it comes to a value,
there is one thing that its last world says of every reference, which is what its data says if
that depends only on alias and path; and of the references of the value, as often as each
occurs, exactly those that have no data have been sent a warning, which names the reference and
the place where it stands. Where it is not allowed, no warning is sent; and if the run comes to
a value, so it does where missing data is allowed, without a warning. -/
theorem resolve_gives_up (w : World) (v : Value) (U : Reference → Prop) (idle : w.IsIdle)
    (sourced : Sourced U 0 w) (plain : ∀ r, U r → r.IsPlain) (used : ∀ r ∈ v.references, U r) :
    (∃ x w', (w.allowing true).resolve v = (some x, w') ∧
      (∀ e, x = .error e →
        (∃ e', e = .spread e') ∨ (∃ i, e = .interrupted i) ∧ w'.interruption?.isSome = true) ∧
      ∀ u, x = .ok u → ∃ lookup : Reference → Except ResolveError Value,
        (∀ r ∈ v.references, ∀ y, w'.Tells r y ↔ y = lookup r) ∧
        (∀ answers, w.registry.Follows w.resolver.policy.fetchTimeout answers →
          ∀ r ∈ v.references, lookup r = answers.lookup r) ∧
        (∀ r ∈ v.references, ∀ e, lookup r = .error e → e.Misses r ∧ r.IsNamedIn e.message) ∧
        ∃ sent, w'.trace.warnings = w.trace.warnings ++ sent ∧
          sent.Perm (Reference.dueWarnings lookup v.references) ∧
          sent.length = v.references.countP fun r => (lookup r).toOption.isNone) ∧
    ((w.allowing false).resolve v).2.trace.warnings = w.trace.warnings ∧
    ∀ u, ((w.allowing false).resolve v).1 = some (.ok u) →
      ((w.allowing true).resolve v).1 = some (.ok u) ∧
        ((w.allowing true).resolve v).2.trace.warnings = w.trace.warnings := by
  have silent := resolve_silent (w := w.allowing false) (v := v) (idle.allowing false) rfl
  refine ⟨?_, silent, ?_⟩
  · have sourced' : Sourced U 0 (w.allowing true) :=
      ⟨sourced.references, sourced.stages, sourced.cache⟩
    obtain ⟨x, w', ran, fails⟩ := resolve_failsFor (w := w.allowing true) (v := v)
      (idle.allowing true) rfl
    refine ⟨x, w', ran, fails, ?_⟩
    rintro u rfl
    have ended : ((w.allowing true).resolve v).1 = some (.ok u) := by rw [ran]
    obtain ⟨lookup, tells, sent, warned, due⟩ :=
      resolve_warns (idle.allowing true) sourced' plain used ended
    rw [ran] at tells warned
    have count := due.length_eq.trans (Reference.length_dueWarnings lookup v.references)
    refine ⟨lookup, tells, ?_, ?_, sent, warned, due, count⟩
    · intro answers follows r hr
      obtain ⟨y, w'', ran', -, -, after⟩ := resolve_eval (w := w.allowing true) follows plain
        (idle.allowing true) sourced'.rooted used
      obtain rfl : w' = w'' := (Prod.mk.inj (ran.symm.trans ran')).2
      exact after.agreesWith follows plain r (used r hr) _ ((tells r hr _).mpr rfl)
    · intro r hr e failed
      have misses := ((tells r hr _).mpr failed.symm).misses
      exact ⟨misses, misses.isNamedIn⟩
  · intro u ended
    have same := runTask_lenient (w := w.allowing false) rfl ended
    have ran : (w.allowing true).resolve v
        = ((w.allowing false).resolve v).map id (World.allowing true) := same
    rw [ran]
    exact ⟨ended, silent⟩

/-- Three references to what is fetched once: one with data, and two that look for entries in
it, of which it has none. -/
def sharedText : Value :=
  .list [.reference { «alias» := "app", path := ["host"] },
    .reference { «alias» := "app", path := ["host", "*", "port"] },
    .secret (.reference { «alias» := "app", path := ["host", "*", "port"] })]

theorem resolve_gives_up_sharedText :
    (World.resolve
      { registry := .only [] "app" (.echo 5), resolver := { policy.allowMissing := true } }
      sharedText).2.trace.warnings.length = 2 := by
  have plain : ∀ r ∈ sharedText.references, r.IsPlain := by
    intro r hr
    simp only [sharedText, Value.references, Value.referencesOfItems, List.append_nil,
      List.mem_append, List.mem_singleton] at hr
    rcases hr with rfl | rfl | rfl <;> exact ⟨by decide, by decide⟩
  obtain ⟨⟨x, w', ran, -, whole⟩, -⟩ := resolve_gives_up
    { registry := .only [] "app" (.echo 5) } sharedText (· ∈ sharedText.references)
    ⟨rfl, rfl, rfl, rfl⟩ (Sourced.of_fresh _ rfl _) plain fun r hr => hr
  have value : x = .ok (.list [.string "host", .null, .secret .null]) :=
    Option.some.inj ((congrArg Prod.fst ran).symm.trans rfl)
  obtain ⟨lookup, -, known, -, sent, warned, -, count⟩ := whole _ value
  have same := known _ (Registry.follows_only fun _ _ => rfl)
  have length : w'.trace.warnings.length = sent.length := congrArg List.length warned
  rw [count, List.countP_congr fun r hr => by rw [same r hr]] at length
  exact (congrArg (fun run => run.2.trace.warnings.length) ran).trans length

end World

end LayeredConfig
