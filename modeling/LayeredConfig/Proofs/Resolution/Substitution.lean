import LayeredConfig.Proofs.Resolution.Answers

/-!
Resolution is substitution.

Every move of a task leaves what the task stands for as it is (`Task.Moves.eval_eq`), or
else the run has been interrupted. So whatever the order of moves, resolving a value
comes to what `Value.eval` says (`World.resolve_eq_eval`).
-/

namespace LayeredConfig

namespace Task

variable {parallel : Bool}

/-! ### What a task stands for -/

mutual
/-- What a task will come to, without the interruption of a run; no value inside if it is a
spread that is given up. -/
def eval (answers : Answers) (lenient : Bool) : Task → Option (Option Value)
  | .leaf v => some (some v)
  | .finished v => some v
  | .failed _ => none
  | .site inSpread r _ =>
    match answers.lookup r with
    | .ok v => some (some v)
    | .error _ => if lenient then some (if inSpread then none else some .null) else none
  | .secret inner => (eval answers lenient inner).map (·.map .secret)
  | .join shape parts =>
    (evalParts answers lenient parts).bind fun vs => (shape.close vs).toOption.map some

def evalParts (answers : Answers) (lenient : Bool) : List Task → Option (List (Option Value))
  | [] => some []
  | t :: rest => do
    let v ← eval answers lenient t
    return v :: (← evalParts answers lenient rest)
end

section Parts

variable {answers : Answers} {lenient : Bool}

/-- A list with a part that fails has no values. -/
theorem evalParts_eq_none {parts : List Task} {t : Task} (ht : t ∈ parts)
    (failed : t.eval answers lenient = none) : evalParts answers lenient parts = none := by
  induction parts with
  | nil => cases ht
  | cons p rest ih =>
    rw [evalParts]
    rcases List.mem_cons.mp ht with rfl | ht
    · rw [failed]
      rfl
    · rw [ih ht]
      cases p.eval answers lenient <;> rfl

theorem evalParts_finished (vs : List (Option Value)) :
    evalParts answers lenient (vs.map .finished) = some vs := by
  induction vs with
  | nil => rfl
  | cons v vs ih =>
    rw [List.map_cons, evalParts, ih, eval]
    rfl

/-- One part may be exchanged for another that stands for the same. -/
theorem evalParts_set {parts : List Task} {i : Nat} {t t' : Task} (found : parts[i]? = some t)
    (same : t'.eval answers lenient = t.eval answers lenient) :
    evalParts answers lenient (parts.set i t') = evalParts answers lenient parts := by
  induction parts generalizing i with
  | nil => rfl
  | cons p rest ih =>
    cases i with
    | zero =>
      simp only [List.getElem?_cons_zero, Option.some.injEq] at found
      rw [List.set_cons_zero, evalParts, evalParts, same, found]
    | succ i =>
      rw [List.set_cons_succ, evalParts, evalParts, ih (by simpa using found)]

theorem eval_inSecret (t : Task) :
    (inSecret t).eval answers lenient = (t.eval answers lenient).map (·.map .secret) := by
  cases t <;> simp [inSecret, eval]

/-- Drawing parts together does not change what they stand for. -/
theorem eval_ofPolled (shape : Shape) (parts : List Task) :
    (ofPolled shape parts).eval answers lenient = (Task.join shape parts).eval answers lenient := by
  cases h : values? parts with
  | none => rw [ofPolled_of_unfinished h]
  | some vs =>
    have same := values?_eq_some_iff.mp h
    rw [eval, same, evalParts_finished]
    rw [ofPolled, ← same, h]
    dsimp only [Option.bind_some]
    cases shape.close vs <;> rfl

/-- Once an error has come up, there is no value. -/
theorem eval_of_surfaced {shape : Shape} {parts : List Task} {inTurns : Bool} {e : ResolveError}
    (found : surfaced? inTurns parts = some e) :
    (Task.join shape parts).eval answers lenient = none := by
  obtain ⟨t, ht, failed⟩ := exists_of_surfaced found
  rw [error?_eq_some_iff] at failed
  subst failed
  rw [eval, evalParts_eq_none ht (by rw [eval])]
  rfl

end Parts

end Task

/-! ### Moves and substitution -/

section Settling

variable {g : Registry} {rules : Policy} {U : Reference → Prop} {answers : Answers}
  {C : Multiset Standing} {here : Address} {r : Reference} {stage : Stage} {w w' : World}

/-- An outcome under the key of a plain reference is the outcome for that reference. -/
theorem Rooted.settle_eq_lookup (follows : g.Follows rules.fetchTimeout answers)
    (plain : ∀ r, U r → r.IsPlain) {S : Multiset Standing} (rooted : Rooted g rules U S w)
    (used : U r) {o : Outcome} (cached : Assoc.get? w.resolver.cache r.key = some o) :
    Site.settle r o = answers.lookup r := by
  obtain ⟨r', used', same, produces⟩ := rooted.cache _ _ cached
  obtain ⟨data, known, rfl⟩ := follows.outcome produces
  obtain ⟨name, path⟩ := (plain r' used').eq_of_key_eq (plain r used) same
  rw [Answers.lookup, ← name, known, ← path]

/-- A reference that settles has found its data, or the run has been interrupted. -/
theorem Site.Move.settles (follows : g.Follows rules.fetchTimeout answers)
    (plain : ∀ r, U r → r.IsPlain) (rooted : Rooted g rules U (⟨here, r, stage⟩ ::ₘ C) w)
    {result : Except ResolveError Value} (move : Site.Move r here stage w (.settled result) w') :
    result = answers.lookup r ∨
      ∃ i, w.interruption? = some i ∧ result = .error (.interrupted i) := by
  have used : U r := rooted.references _ (Multiset.mem_cons_self _ _)
  generalize came : Progress.settled result = p at move
  cases move with
  | stop interrupted =>
    cases came
    exact .inr ⟨_, interrupted, rfl⟩
  | remember cached =>
    cases came
    exact .inl (rooted.settle_eq_lookup follows plain used cached)
  | unbound free =>
    cases came
    have none := follows.unbound _ (rooted.registry.get?_eq_none_iff.mp free)
    exact .inl (by rw [Answers.lookup, none])
  | refused built =>
    cases came
    have refused := follows.refused (rooted.registry.mayAnswer (.built built))
    exact .inl (by rw [Answers.lookup, refused])
  | fetched due =>
    cases came
    obtain ⟨data, known, same⟩ := follows.outcome (rooted.root.produces due)
    exact .inl (by rw [Answers.lookup, known, same])
  | arrived due =>
    cases came
    obtain ⟨data, known, same⟩ := follows.outcome (rooted.root.produces due)
    exact .inl (by rw [Answers.lookup, known, same])
  | timedOut early late =>
    cases came
    obtain ⟨data, known, same⟩ := follows.outcome (rooted.root.produces_timedOut early late)
    exact .inl (by rw [Answers.lookup, known, rooted.policy, same])
  | _ => cases came

/-- What a reference has come to is what it stands for, or the run has been interrupted. -/
theorem Task.eval_ofProgress (follows : g.Follows rules.fetchTimeout answers)
    (plain : ∀ r, U r → r.IsPlain) (rooted : Rooted g rules U (⟨here, r, stage⟩ ::ₘ C) w)
    {p : Progress} (move : Site.Move r here stage w p w') (inSpread : Bool) :
    (ofProgress inSpread r p w').1.eval answers rules.allowMissing
        = (Task.site inSpread r stage).eval answers rules.allowMissing ∨
      (ofProgress inSpread r p w').1.eval answers rules.allowMissing = none ∧
        w.interruption?.isSome = true := by
  have policy := (rooted.move move).policy
  cases p with
  | waiting stage' => exact .inl rfl
  | settled result =>
    rcases move.settles follows plain rooted with found | ⟨i, interrupted, rfl⟩
    · refine .inl ?_
      rw [Task.eval, ← found]
      cases result with
      | ok v => rfl
      | error e =>
        have other := Answers.not_isInterruption found.symm
        simp only [ofProgress, policy, other, Bool.not_false, Bool.and_true]
        split <;> rfl
    · refine .inr ⟨?_, by simp [interrupted]⟩
      simp [ofProgress, ResolveError.isInterruption, Task.eval]

/-- Moves leave what a task stands for as it is, or the run has been interrupted. -/
theorem Task.Moves.eval_eq {parallel : Bool} {t t' : Task}
    (follows : g.Follows rules.fetchTimeout answers) (plain : ∀ r, U r → r.IsPlain)
    (moves : Moves parallel here t w t' w')
    (rooted : Rooted g rules U (C + t.sites parallel here) w) :
    t'.eval answers rules.allowMissing = t.eval answers rules.allowMissing ∨
      t'.eval answers rules.allowMissing = none ∧ w'.interruption?.isSome = true := by
  induction moves generalizing C with
  | rest => exact .inl rfl
  | turn => exact .inl rfl
  | trans first next ih ih' =>
    have middle := first.keeps_all (Rooted.endures g rules U).toKeeps rooted
    rcases ih rooted with same | ⟨none, interrupted⟩
    · rw [← same]
      exact ih' middle
    · rcases ih' middle with same' | gone
      · exact .inr ⟨same'.trans none, next.sameMoment.interruption interrupted⟩
      · exact .inr gone
  | leaf live => exact .inl rfl
  | stop interrupted => exact .inr ⟨by rw [Task.eval], by simp [interrupted]⟩
  | @site here inSpread r stage w w' p move =>
    rw [sites_site, add_comm, Multiset.singleton_add] at rooted
    have moved : Moves parallel here (.site inSpread r stage) w _ _ := .site move
    rcases Task.eval_ofProgress follows plain rooted move inSpread with same | ⟨none, interrupted⟩
    · exact .inl same
    · exact .inr ⟨none, moved.sameMoment.interruption interrupted⟩
  | @secret here inner inner' w w' moves tidy ih =>
    rw [sites_secret] at rooted
    rw [eval_inSecret, Task.eval]
    rcases ih rooted with same | ⟨none, interrupted⟩
    · exact .inl (by rw [same])
    · exact .inr ⟨by rw [none]; rfl, interrupted⟩
  | @part here shape parts i t t' w w' found calm turn isOpen moves tidy ih =>
    obtain ⟨F, census, -⟩ := sites_join_set found here
    rw [census] at rooted
    rcases ih rooted with same | ⟨none, interrupted⟩
    · exact .inl (by rw [Task.eval, Task.eval, evalParts_set found same])
    · refine .inr ⟨?_, interrupted⟩
      have inside : t' ∈ parts.set i t' := List.mem_set (List.getElem?_eq_some_iff.mp found).1 _
      rw [Task.eval, evalParts_eq_none inside none]
      rfl
  | close => exact .inl (eval_ofPolled _ _)
  | fail found => exact .inl (by rw [eval_of_surfaced found, Task.eval])

end Settling

/-! ### Tasks of values -/

namespace Task

variable {answers : Answers} {lenient : Bool}

/-- A task without parts stands for the same as one that never looks at its parts. -/
theorem eval_ofParts {shape : Shape} {empty : Value} (close : shape.close [] = .ok empty)
    (parts : List Task) :
    (ofParts shape empty parts).eval answers lenient
      = (Task.join shape parts).eval answers lenient := by
  cases parts with
  | nil =>
    rw [Task.eval, evalParts]
    dsimp only [Option.bind_some]
    rw [close]
    rfl
  | cons t rest => rfl

theorem evalParts_ofItems {items : List Value}
    (ih : ∀ v ∈ items, (ofValue v).eval answers lenient = (v.eval answers lenient).map some) :
    (evalParts answers lenient (ofItems items)).map (·.filterMap id)
      = Value.evalItems answers lenient items := by
  induction items with
  | nil => rfl
  | cons v rest inner =>
    rw [ofItems, evalParts, Value.evalItems, ih v List.mem_cons_self,
      ← inner fun v hv => ih v (List.mem_cons_of_mem _ hv)]
    cases v.eval answers lenient with
    | none => rfl
    | some u => cases evalParts answers lenient (ofItems rest) <;> rfl

theorem evalParts_ofFields {fields : List (String × Value)}
    (ih : ∀ f ∈ fields, (ofValue f.2).eval answers lenient = (f.2.eval answers lenient).map some) :
    (evalParts answers lenient (ofFields fields)).map
        (fun vs => (Assoc.keys fields).zip (vs.filterMap id))
      = Value.evalFields answers lenient fields := by
  induction fields with
  | nil => rfl
  | cons f rest inner =>
    obtain ⟨key, v⟩ := f
    rw [ofFields, evalParts, Value.evalFields, ih _ List.mem_cons_self,
      ← inner fun f hf => ih f (List.mem_cons_of_mem _ hf)]
    cases v.eval answers lenient with
    | none => rfl
    | some u => cases evalParts answers lenient (ofFields rest) <;> rfl

theorem evalParts_ofEntries {entries : List (Entry Value)}
    (ih : ∀ e ∈ entries,
      (ofValue e.value).eval answers lenient = (e.value.eval answers lenient).map some ∧
      (ofSpread e.value).eval answers lenient
        = if lenient && e.value.isMissing answers then some none
          else (e.value.eval answers lenient).map some) :
    (evalParts answers lenient (ofEntries entries)).map
        (assemble (entries.map fun e => (e.key, e.origin)))
      = Value.evalEntries answers lenient entries := by
  induction entries with
  | nil => rfl
  | cons e rest inner =>
    obtain ⟨key, v, origin⟩ := e
    have rest' := inner fun e he => ih e (List.mem_cons_of_mem _ he)
    obtain ⟨value, spread⟩ := ih _ List.mem_cons_self
    dsimp only at value spread
    cases key with
    | some key =>
      rw [ofEntries, evalParts, Value.evalEntries, value, ← rest']
      cases v.eval answers lenient with
      | none => rfl
      | some u => cases evalParts answers lenient (ofEntries rest) <;> rfl
    | none =>
      rw [ofEntries, evalParts, Value.evalEntries, spread, ← rest']
      split
      · cases evalParts answers lenient (ofEntries rest) <;> rfl
      · cases v.eval answers lenient with
        | none => rfl
        | some u => cases evalParts answers lenient (ofEntries rest) <;> rfl

/-- The task of a value stands for what the value does. As the value of a spread it stands
for nothing where it may be given up. -/
theorem eval_ofValue_and_ofSpread (v : Value) :
    (ofValue v).eval answers lenient = (v.eval answers lenient).map some ∧
      (ofSpread v).eval answers lenient
        = if lenient && v.isMissing answers then some none
          else (v.eval answers lenient).map some := by
  induction v using Value.induct with
  | scalar s => simp [ofValue, ofSpread, Task.eval, Value.eval, Value.isMissing]
  | reference r =>
    rw [ofValue, ofSpread, Task.eval, Task.eval, Value.eval, Value.isMissing]
    cases answers.lookup r with
    | ok v => cases lenient <;> exact ⟨rfl, rfl⟩
    | error e => cases lenient <;> exact ⟨rfl, rfl⟩
  | secret inner ih =>
    rw [ofValue, ofSpread, Task.eval, Task.eval, ih.1, ih.2, Value.eval, Value.isMissing]
    refine ⟨by cases inner.eval answers lenient <;> rfl, ?_⟩
    split
    · rfl
    · cases inner.eval answers lenient <;> rfl
  | list items ih =>
    have parts := evalParts_ofItems fun v hv => (ih v hv).1
    have whole : (Task.join .list (ofItems items)).eval answers lenient
        = ((Value.list items).eval answers lenient).map some := by
      rw [Task.eval, Value.eval, ← parts]
      cases evalParts answers lenient (ofItems items) <;> rfl
    rw [ofValue, ofSpread, eval_ofParts rfl, whole]
    simp [Value.isMissing]
  | map fields ih =>
    have parts := evalParts_ofFields fun f hf => (ih f hf).1
    have whole : (Task.join (.map (Assoc.keys fields)) (ofFields fields)).eval answers lenient
        = ((Value.map fields).eval answers lenient).map some := by
      rw [Task.eval, Value.eval, ← parts]
      cases evalParts answers lenient (ofFields fields) <;> rfl
    rw [ofValue, ofSpread, eval_ofParts (Shape.close_map_nil _), whole]
    simp [Value.isMissing]
  | ordered entries ih =>
    have parts := evalParts_ofEntries ih
    have whole : (Task.join (.ordered (entries.map fun e => (e.key, e.origin)))
          (ofEntries entries)).eval answers lenient
        = ((Value.ordered entries).eval answers lenient).map some := by
      rw [Task.eval, Value.eval, ← parts]
      cases evalParts answers lenient (ofEntries entries) with
      | none => rfl
      | some vs =>
        dsimp only [Option.bind_some, Option.map_some]
        rw [Shape.toOption_close_ordered]
    rw [ofValue, ofSpread, eval_ofParts (Shape.close_ordered_nil _), whole]
    simp [Value.isMissing]

theorem eval_ofMap (fields : Fields) :
    (ofMap fields).eval answers lenient
      = (Value.evalFields answers lenient fields).map fun fields => some (.map fields) := by
  have parts : (evalParts answers lenient (ofFields fields)).map _ = _ :=
    evalParts_ofFields fun f _ => (eval_ofValue_and_ofSpread f.2).1
  cases fields with
  | nil => simp [ofMap, Task.eval, Value.evalFields]
  | cons f rest =>
    have nonempty : ofMap (f :: rest)
        = .join (.map (Assoc.keys (f :: rest))) (ofFields (f :: rest)) :=
      rfl
    rw [nonempty, Task.eval, ← parts]
    cases evalParts answers lenient (ofFields (f :: rest)) <;> rfl

end Task

/-! ### Runs -/

theorem toOption_eq_some_iff {ε α : Type} {x : Except ε α} {v : α} :
    x.toOption = some v ↔ x = .ok v := by
  cases x <;> simp [Except.toOption]

/-- Runs, too, leave what a task stands for as it is, or they have been interrupted. -/
theorem Task.Runs.eval_eq {g : Registry} {rules : Policy} {U : Reference → Prop} {answers : Answers}
    {parallel : Bool} {t t' : Task} {w w' : World}
    (follows : g.Follows rules.fetchTimeout answers) (plain : ∀ r, U r → r.IsPlain)
    (runs : Runs parallel t w t' w') (rooted : Rooted g rules U (t.sites parallel []) w) :
    t'.eval answers rules.allowMissing = t.eval answers rules.allowMissing ∨
      t'.eval answers rules.allowMissing = none ∧ w'.interruption?.isSome = true := by
  induction runs with
  | trans first next ih ih' =>
    have middle := first.keeps_all (Rooted.endures g rules U) rooted
    rcases ih rooted with same | ⟨none, interrupted⟩
    · rw [← same]
      exact ih' middle
    · rcases ih' middle with same' | gone
      · exact .inr ⟨same'.trans none, next.interruption interrupted⟩
      · exact .inr gone
  | moves moves => exact moves.eval_eq (C := 0) follows plain (by simpa using rooted)
  | _ => exact .inl rfl

namespace World

variable {g : Registry} {U : Reference → Prop} {answers : Answers} {t : Task} {w : World}

/-- What a run comes to, unless it is interrupted. -/
theorem runTask_eval (follows : g.Follows w.resolver.policy.fetchTimeout answers)
    (plain : ∀ r, U r → r.IsPlain) (fit : t.Fit w.resolver.policy.isParallel w)
    (rooted : Rooted g w.resolver.policy U (t.sites w.resolver.policy.isParallel []) w) :
    ∃ x w', w.runTask t = (some x, w') ∧
      (x.toOption = (t.eval answers w.resolver.policy.allowMissing).map (·.getD .null) ∨
        x.toOption = none ∧ w'.interruption?.isSome = true) ∧
      w'.IsIdle ∧ Rooted g w.resolver.policy U 0 w' := by
  obtain ⟨t', w', x, ran, result, runs⟩ := runTask_ends fit
  have atEnd := Task.isOver_of_result result
  have balanced := runs.keeps_all Task.balanced_endures fit.balanced
  have after := runs.keeps_all (Rooted.endures g w.resolver.policy U) rooted
  rw [Task.sites_of_isOver atEnd] at balanced after
  have value : x.toOption
      = (t'.eval answers w.resolver.policy.allowMissing).map (·.getD .null) := by
    cases t' with
    | finished v => cases result; rfl
    | failed e => cases result; rfl
    | _ => cases atEnd
  refine ⟨x, _, ran, ?_, isIdle_iff.mpr (balanced.plan fun _ => {}), after.plan fun _ => {}⟩
  rcases runs.eval_eq follows plain rooted with same | ⟨none, interrupted⟩
  · exact .inl (by rw [value, same])
  · exact .inr ⟨by rw [value, none]; rfl, interrupted⟩

/-- Resolving a value comes to what the value stands for, unless it is interrupted, and leaves
everything in order. -/
theorem resolve_eval (follows : g.Follows w.resolver.policy.fetchTimeout answers)
    (plain : ∀ r, U r → r.IsPlain) (idle : w.IsIdle)
    (rooted : Rooted g w.resolver.policy U 0 w) {v : Value} (used : ∀ r ∈ v.references, U r) :
    ∃ x w', w.resolve v = (some x, w') ∧
      (x.toOption = v.eval answers w.resolver.policy.allowMissing ∨
        x.toOption = none ∧ w'.interruption?.isSome = true) ∧
      w'.IsIdle ∧ Rooted g w.resolver.policy U 0 w' := by
  obtain ⟨x, w', ran, same, after⟩ := runTask_eval follows plain
    (idle.fit _ (Task.Unstarted.ofValue v)) (rooted.arrive_ofValue _ used)
  refine ⟨x, w', ran, same.imp_left ?_, after⟩
  intro same
  rw [same, (Task.eval_ofValue_and_ofSpread v).1]
  cases v.eval answers w.resolver.policy.allowMissing <;> rfl

/-- Resolving the fields of a map comes to what they stand for, unless it is interrupted, and
leaves everything in order. -/
theorem resolveFields_eval (follows : g.Follows w.resolver.policy.fetchTimeout answers)
    (plain : ∀ r, U r → r.IsPlain) (idle : w.IsIdle)
    (rooted : Rooted g w.resolver.policy U 0 w) {fields : Fields}
    (used : ∀ r ∈ Value.referencesOfFields fields, U r) :
    ∃ x w', w.resolveFields fields = (some x, w') ∧
      (x.toOption = (Value.evalFields answers w.resolver.policy.allowMissing fields).map .map ∨
        x.toOption = none ∧ w'.interruption?.isSome = true) ∧
      w'.IsIdle ∧ Rooted g w.resolver.policy U 0 w' := by
  obtain ⟨x, w', ran, same, after⟩ := runTask_eval follows plain (idle.fit_ofMap _ fields)
    (rooted.arrive_ofMap _ used)
  refine ⟨x, w', ran, same.imp_left ?_, after⟩
  intro same
  rw [same, Task.eval_ofMap]
  cases Value.evalFields answers w.resolver.policy.allowMissing fields <;> rfl

/-- Resolving a value with a fresh resolver comes to what the value stands for, whatever the
schedule, if nothing has interrupted it: without an error exactly if there is data behind all
that needs it, and then with the value in which it stands in place of the references. -/
theorem resolve_eq_eval (w : World) (v : Value) (answers : Answers) (idle : w.IsIdle)
    (fresh : w.resolver.cache = [])
    (follows : w.registry.Follows w.resolver.policy.fetchTimeout answers)
    (plain : ∀ r ∈ v.references, r.IsPlain)
    (uninterrupted : (w.resolve v).2.interruption? = none) :
    ∃ x, (w.resolve v).1 = some x ∧
      x.toOption = v.eval answers w.resolver.policy.allowMissing := by
  obtain ⟨x, w', ran, same, -⟩ := resolve_eval follows plain idle
    (Rooted.of_fresh w fresh (· ∈ v.references)) fun r hr => hr
  rw [ran] at uninterrupted
  refine ⟨x, by rw [ran], same.resolve_right ?_⟩
  intro gone
  have interrupted := gone.2
  rw [uninterrupted] at interrupted
  cases interrupted

/-- Two references, one of them secret, to a provider that takes its time. -/
theorem resolve_eq_eval_echo :
    ∃ x, (World.resolve { registry := .only [] "app" (.echo 5) }
        (.list [.reference { «alias» := "app", path := ["host"] },
          .secret (.reference { «alias» := "app", path := ["port"] })])).1 = some x ∧
      x.toOption = some (.list [.string "host", .secret (.string "port")]) :=
  resolve_eq_eval { registry := .only [] "app" (.echo 5) } _ _ ⟨rfl, rfl, rfl, rfl⟩ rfl
    (Registry.follows_only fun _ _ => rfl)
    (by
      intro r hr
      simp only [Value.references, Value.referencesOfItems, List.append_nil, List.mem_append,
        List.mem_singleton] at hr
      rcases hr with rfl | rfl <;> exact ⟨by decide, by decide⟩)
    (by decide)

end World

/-! ### Runs that nothing interrupts -/

/-- A context that nothing interrupts. -/
structure Context.IsQuiet (c : Context) : Prop where
  live : c.cancelled = false
  deadline : c.deadline = none
  cancelAt : c.cancelAt = none

theorem Context.IsQuiet.interruption? {c : Context} (quiet : c.IsQuiet) (now : Nat) :
    c.interruption? now = none := by
  simp [Context.interruption?, quiet.live, quiet.deadline, Context.reached]

/-- No call behind a registry cancels the context. -/
structure Registry.IsCalm (g : Registry) : Prop where
  inits : ∀ name providerType config t trace,
    Assoc.get? g.bindings name = some (.declared providerType config none) →
    Assoc.get? g.types providerType = some t → (t.init trace name config).cancels = false
  fetches : ∀ name p trace path, g.MayAnswer name (.ok p) → (p.fetch trace path).cancels = false

/-- Everything comes from a registry, and the context is as it was. -/
structure Undisturbed (g : Registry) (rules : Policy) (U : Reference → Prop) (c : Context)
    (S : Multiset Standing) (w : World) : Prop where
  rooted : Rooted g rules U S w
  context : w.context = c

namespace Undisturbed

variable {g : Registry} {rules : Policy} {U : Reference → Prop} {c : Context}
  {C : Multiset Standing} {here : Address} {r : Reference} {stage : Stage} {w w' : World}

theorem move (calm : g.IsCalm) {p : Progress}
    (undisturbed : Undisturbed g rules U c (⟨here, r, stage⟩ ::ₘ C) w)
    (move : Site.Move r here stage w p w') : Undisturbed g rules U c (p.among here r C) w' := by
  obtain ⟨rooted, context⟩ := undisturbed
  refine ⟨rooted.move move, ?_⟩
  have quietFetch : ∀ p path, g.MayAnswer r.alias (.ok p) →
      (p.fetch w.trace path).cancels = false :=
    fun p path answer => calm.fetches _ p w.trace path answer
  cases move with
  | stop interrupted =>
    rw [← context]
    cases stage <;> rfl
  | build unbuilt first live known =>
    have silent := calm.inits _ _ _ _ w.trace (rooted.registry.unbuilt unbuilt)
      (rooted.registry.types ▸ known)
    simp [Site.initiate, silent, context]
  | launch first uncached spare live =>
    simp [Site.dispatch, quietFetch _ r.requestPath rooted.root, context]
  | launchQueued next live =>
    have silent := quietFetch _ r.requestPath rooted.root
    simp [Site.dispatch, silent, context]
  | _ => exact context

theorem endures (calm : g.IsCalm) (quiet : c.IsQuiet) (rules : Policy) (U : Reference → Prop) :
    Task.Endures (Undisturbed g rules U c) (Undisturbed g rules U c) :=
  Task.Persists.endures
    { turn := fun S w f h => ⟨h.rooted.plan f, h.context⟩
      move := fun h move => h.move calm move
      warn := fun S w e h => ⟨h.rooted.log _, h.context⟩
      drop := fun C here r stage w h =>
        ⟨h.rooted.surrender, (by cases stage <;> exact h.context)⟩
      wait := fun S w moment h _ due => ⟨h.rooted.wait due, h.context⟩
      strike := fun S w h struck => by
        simp [Context.isStruck, h.context, quiet.cancelAt, Context.reached] at struck }

end Undisturbed

namespace World

/-- Nothing interrupts a run in a quiet context if everything comes from a calm registry. -/
theorem resolve_undisturbed {g : Registry} {U : Reference → Prop} {w : World} {v : Value}
    (calm : g.IsCalm) (quiet : w.context.IsQuiet) (idle : w.IsIdle)
    (rooted : Rooted g w.resolver.policy U 0 w) (used : ∀ r ∈ v.references, U r) :
    (w.resolve v).2.interruption? = none := by
  obtain ⟨t', w', x, ran, -, runs⟩ := runTask_ends (idle.fit _ (Task.Unstarted.ofValue v))
  have undisturbed : Undisturbed g w.resolver.policy U w.context
      ((Task.ofValue v).sites w.resolver.policy.isParallel []) w :=
    ⟨rooted.arrive_ofValue _ used, rfl⟩
  have after := runs.keeps_all (Undisturbed.endures calm quiet w.resolver.policy _) undisturbed
  rw [resolve, ran]
  show w'.context.interruption? _ = none
  rw [after.context, quiet.interruption?]

/-- Nothing interrupts a run of a fresh resolver in a quiet context with a calm registry. -/
theorem resolve_uninterrupted {w : World} (v : Value) (idle : w.IsIdle)
    (fresh : w.resolver.cache = []) (quiet : w.context.IsQuiet) (calm : w.registry.IsCalm) :
    (w.resolve v).2.interruption? = none :=
  resolve_undisturbed calm quiet idle (Rooted.of_fresh w fresh fun _ => True) fun _ _ => trivial

end World

end LayeredConfig
