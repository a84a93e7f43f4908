import LayeredConfig.Proofs.Resolution.Substitution

/-!
# Depth first

`Value.walk` goes through a value depth first, in the order in which it is written, and stops at
the first error: it says which references it has met and what it has come to.

Main results:

* `Value.walk_follows`: a walk gets to the end, or comes to the first reference whose failure
  counts, or to a map that cannot be composed.
* `Value.toOption_walk`: a walk comes to what the value stands for (`Value.eval`), so the two ways
  to say what a value means agree. A spread that is given up has something to be walked to all the
  same (`exists_walk_of_isMissing`).
* `Task.walk_ofValue_and_ofSpread`: the walk of the task that resolves a value is the walk of the
  value.

Walks are put together by `Walk.bind`; `Walk.toOption_bind` and `Walk.toOption_map` say what they
come to.
-/

namespace LayeredConfig

/-! ### Walks -/

/-- The references that have been met on the way, in order, and what has come of it. -/
structure Walk (α : Type) where
  met : List Reference := []
  result : Except ResolveError α

namespace Walk

variable {α β γ : Type}

/-- Go on with what a walk has come to, unless it has come to an error. -/
def bind (x : Walk α) (f : α → Walk β) : Walk β :=
  match x.result with
  | .ok a => { met := x.met ++ (f a).met, result := (f a).result }
  | .error e => { met := x.met, result := .error e }

instance : Monad Walk where
  pure a := { result := .ok a }
  bind := bind

variable {x : Walk α} {f : α → Walk β}

theorem pure_eq (a : α) : (pure a : Walk α) = { result := .ok a } := rfl

theorem bind_of_ok {a : α} (ok : x.result = .ok a) :
    x >>= f = { met := x.met ++ (f a).met, result := (f a).result } := by
  show bind x f = _
  rw [bind, ok]

theorem bind_of_error {e : ResolveError} (failed : x.result = .error e) :
    x >>= f = { met := x.met, result := .error e } := by
  show bind x f = _
  rw [bind, failed]

instance : LawfulMonad Walk := LawfulMonad.mk' Walk
  (fun x => by
    obtain ⟨met, result⟩ := x
    cases result with
    | ok a => exact congrArg (Walk.mk · _) (List.append_nil met)
    | error e => rfl)
  (fun _ _ => rfl)
  (fun x f g => by
    cases hx : x.result with
    | error e => rw [bind_of_error hx, bind_of_error rfl, bind_of_error hx]
    | ok a =>
      rw [bind_of_ok hx, bind_of_ok hx]
      cases hf : (f a).result with
      | error e => rw [bind_of_error rfl, bind_of_error hf]
      | ok b => rw [bind_of_ok rfl, bind_of_ok hf, List.append_assoc])

theorem map_eq (g : α → β) : g <$> x = { met := x.met, result := x.result.map g } := by
  rw [← bind_pure_comp]
  cases result : x.result with
  | ok a => rw [bind_of_ok result, pure_eq, List.append_nil, Except.map]
  | error e => rw [bind_of_error result, Except.map]

theorem toOption_bind :
    (x >>= f).result.toOption = x.result.toOption.bind fun a => (f a).result.toOption := by
  cases result : x.result with
  | ok a => rw [bind_of_ok result]; rfl
  | error e => rw [bind_of_error result]; rfl

theorem toOption_map (g : α → β) : (g <$> x).result.toOption = x.result.toOption.map g := by
  rw [map_eq]
  cases x.result <;> rfl

end Walk

namespace Reference

/-- Whether a walk goes on after it has met a reference. -/
def Passes (answers : Answers) (lenient : Bool) (r : Reference) : Prop :=
  ∀ e, answers.lookup r = .error e → lenient = true

/-- Meet a reference: its data, or nothing if it is given up. -/
def walk (answers : Answers) (lenient : Bool) (r : Reference) : Walk (Option Value) where
  met := [r]
  result :=
    match answers.lookup r with
    | .ok v => .ok (some v)
    | .error e => if lenient then .ok none else .error e

end Reference

/-- Whether a walk meets references in the order of a list: all of them if it comes to a value.
Otherwise it ends at the first whose failure counts, or at a map that cannot be composed. -/
structure Walk.Follows {α : Type} (answers : Answers) (lenient : Bool) (x : Walk α)
    (rs : List Reference) : Prop where
  inOrder : x.met <+: rs
  complete : ∀ a, x.result = .ok a → x.met = rs ∧ ∀ r ∈ rs, r.Passes answers lenient
  failed : ∀ e, x.result = .error e →
    (∃ front r, x.met = front ++ [r] ∧ (∀ r' ∈ front, r'.Passes answers lenient) ∧
      answers.lookup r = .error e ∧ lenient = false) ∨
    (∃ e', e = .spread e') ∧ ∀ r ∈ x.met, r.Passes answers lenient

namespace Walk.Follows

variable {α β : Type} {answers : Answers} {lenient : Bool} {x : Walk α} {f : α → Walk β}
  {rs rs' : List Reference}

theorem pure (a : α) : Follows answers lenient (pure a) [] :=
  ⟨List.prefix_rfl, fun _ _ => ⟨rfl, by simp⟩, fun _ failed => by cases failed⟩

theorem walk (r : Reference) : Follows answers lenient (r.walk answers lenient) [r] := by
  unfold Reference.walk
  cases found : answers.lookup r with
  | ok v =>
    refine ⟨List.prefix_rfl, fun _ _ => ⟨rfl, ?_⟩, fun _ failed => by cases failed⟩
    simp [Reference.Passes, found]
  | error e =>
    cases lenient with
    | true =>
      exact ⟨List.prefix_rfl, fun _ _ => ⟨rfl, by simp [Reference.Passes]⟩,
        fun _ failed => by cases failed⟩
    | false =>
      refine ⟨List.prefix_rfl, fun _ ok => (by cases ok), fun e' failed => .inl ?_⟩
      cases failed
      exact ⟨[], r, rfl, by simp, found, rfl⟩

theorem compose (entries : List (Entry Value)) :
    Follows answers lenient
      { result := ((composeResolved entries).map Value.map).mapError .spread } [] := by
  refine ⟨List.prefix_rfl, fun _ _ => ⟨rfl, by simp⟩, fun e failed => .inr ⟨?_, by simp⟩⟩
  cases composed : composeResolved entries with
  | ok fields => simp [composed, Except.map, Except.mapError] at failed
  | error e' =>
    rw [composed] at failed
    cases failed
    exact ⟨e', rfl⟩

theorem bind (first : x.Follows answers lenient rs)
    (next : ∀ a, x.result = .ok a → (f a).Follows answers lenient rs') :
    (x >>= f).Follows answers lenient (rs ++ rs') := by
  cases result : x.result with
  | error e =>
    rw [bind_of_error result]
    refine ⟨first.inOrder.trans (List.prefix_append _ _), fun _ ok => (by cases ok), ?_⟩
    rintro e' failed
    cases failed
    exact first.failed e result
  | ok a =>
    obtain ⟨all, passed⟩ := first.complete a result
    obtain ⟨inOrder, complete, failed⟩ := next a result
    rw [bind_of_ok result, all]
    refine ⟨(List.prefix_append_right_inj _).mpr inOrder, fun b ok => ?_, fun e fails => ?_⟩
    · obtain ⟨all', passed'⟩ := complete b ok
      exact ⟨by rw [all'], List.forall_mem_append.mpr ⟨passed, passed'⟩⟩
    · refine (failed e fails).imp ?_ (.imp_right fun passed' =>
        List.forall_mem_append.mpr ⟨passed, passed'⟩)
      rintro ⟨front, r, same, passed', reason⟩
      exact ⟨rs ++ front, r, by simp [same], List.forall_mem_append.mpr ⟨passed, passed'⟩, reason⟩

theorem map (follows : x.Follows answers lenient rs) (f : α → β) :
    (f <$> x).Follows answers lenient rs := by
  rw [← bind_pure_comp, ← List.append_nil rs]
  exact follows.bind fun _ _ => .pure _

end Walk.Follows

namespace Value

mutual
/-- Go through a value depth first and put data in place of its references. A map with spreads
is composed once all its entries have been gone through. -/
def walk (answers : Answers) (lenient : Bool) : Value → Walk Value
  | .scalar s => return .scalar s
  | .list items => return .list (← walkItems answers lenient items)
  | .map fields => return .map (← walkFields answers lenient fields)
  | .ordered entries => do
    let entries ← walkEntries answers lenient entries
    { result := ((composeResolved entries).map .map).mapError .spread }
  | .reference r => return (← r.walk answers lenient).getD .null
  | .secret inner => return .secret (← walk answers lenient inner)

def walkItems (answers : Answers) (lenient : Bool) : List Value → Walk (List Value)
  | [] => return []
  | v :: rest => do
    let v ← walk answers lenient v
    return v :: (← walkItems answers lenient rest)

def walkFields (answers : Answers) (lenient : Bool) :
    List (String × Value) → Walk (List (String × Value))
  | [] => return []
  | (key, v) :: rest => do
    let v ← walk answers lenient v
    return (key, v) :: (← walkFields answers lenient rest)

def walkEntries (answers : Answers) (lenient : Bool) :
    List (Entry Value) → Walk (List (Entry Value))
  | [] => return []
  | ⟨some key, v, origin⟩ :: rest => do
    let v ← walk answers lenient v
    return ⟨some key, v, origin⟩ :: (← walkEntries answers lenient rest)
  | ⟨none, v, origin⟩ :: rest => do
    let u ← walk answers lenient v
    let rest ← walkEntries answers lenient rest
    return if lenient && isMissing answers v then rest else ⟨none, u, origin⟩ :: rest
end

variable {answers : Answers} {lenient : Bool}

/-- A walk meets the references of a value in the order in which they are written. -/
theorem walk_follows (v : Value) :
    (v.walk answers lenient).Follows answers lenient v.references := by
  induction v using induct with
  | scalar s => exact .pure _
  | reference r =>
    rw [walk, references, bind_pure_comp]
    exact (Walk.Follows.walk r).map _
  | secret inner ih =>
    rw [walk, references, bind_pure_comp]
    exact ih.map _
  | list items ih =>
    rw [walk, references, bind_pure_comp]
    refine .map ?_ _
    induction items with
    | nil => exact .pure _
    | cons v rest inner =>
      rw [walkItems, referencesOfItems]
      refine (ih v List.mem_cons_self).bind fun _ _ => ?_
      rw [bind_pure_comp]
      exact (inner fun v hv => ih v (List.mem_cons_of_mem _ hv)).map _
  | map fields ih =>
    rw [walk, references, bind_pure_comp]
    refine .map ?_ _
    induction fields with
    | nil => exact .pure _
    | cons f rest inner =>
      obtain ⟨key, v⟩ := f
      rw [walkFields, referencesOfFields]
      refine (ih _ List.mem_cons_self).bind fun _ _ => ?_
      rw [bind_pure_comp]
      exact (inner fun f hf => ih f (List.mem_cons_of_mem _ hf)).map _
  | ordered entries ih =>
    rw [walk, references, ← List.append_nil (referencesOfEntries entries)]
    refine .bind ?_ fun _ _ => .compose _
    induction entries with
    | nil => exact .pure _
    | cons e rest inner =>
      have others := inner fun e he => ih e (List.mem_cons_of_mem _ he)
      obtain ⟨_ | key, v, origin⟩ := e
      · rw [walkEntries, referencesOfEntries]
        refine (ih _ List.mem_cons_self).bind fun _ _ => ?_
        rw [bind_pure_comp]
        exact others.map _
      · rw [walkEntries, referencesOfEntries]
        refine (ih _ List.mem_cons_self).bind fun _ _ => ?_
        rw [bind_pure_comp]
        exact others.map _

/-- A reference without data does not keep a walk from going on where missing data is allowed. -/
theorem exists_walk_of_isMissing {v : Value} (missing : v.isMissing answers = true) :
    ∃ u, (v.walk answers true).result = .ok u := by
  induction v using induct with
  | reference r =>
    rw [walk, bind_pure_comp, Walk.map_eq, Reference.walk]
    cases answers.lookup r <;> exact ⟨_, rfl⟩
  | secret inner ih =>
    obtain ⟨u, value⟩ := ih missing
    rw [walk, bind_pure_comp, Walk.map_eq, value]
    exact ⟨_, rfl⟩
  | _ => cases missing

/-- A walk through a value comes to what the value stands for, if it stands for anything. -/
theorem toOption_walk (v : Value) :
    (v.walk answers lenient).result.toOption = v.eval answers lenient := by
  induction v using induct with
  | scalar s => rfl
  | reference r =>
    rw [walk, eval, bind_pure_comp, Walk.map_eq, Reference.walk]
    cases answers.lookup r with
    | ok v => rfl
    | error e => cases lenient <;> rfl
  | secret inner ih => rw [walk, eval, bind_pure_comp, Walk.toOption_map, ih]
  | list items ih =>
    rw [walk, eval, bind_pure_comp, Walk.toOption_map]
    congr 1
    induction items with
    | nil => rfl
    | cons v rest inner =>
      rw [walkItems, evalItems, Walk.toOption_bind, ih v List.mem_cons_self,
        ← inner fun v hv => ih v (List.mem_cons_of_mem _ hv)]
      simp only [bind_pure_comp, Walk.toOption_map]
      rfl
  | map fields ih =>
    rw [walk, eval, bind_pure_comp, Walk.toOption_map]
    congr 1
    induction fields with
    | nil => rfl
    | cons f rest inner =>
      rw [walkFields, evalFields, Walk.toOption_bind, ih _ List.mem_cons_self,
        ← inner fun f hf => ih f (List.mem_cons_of_mem _ hf)]
      simp only [bind_pure_comp, Walk.toOption_map]
      rfl
  | ordered entries ih =>
    have each : (walkEntries answers lenient entries).result.toOption
        = evalEntries answers lenient entries := by
      induction entries with
      | nil => rfl
      | cons e rest inner =>
        have others := inner fun e he => ih e (List.mem_cons_of_mem _ he)
        have value := ih _ List.mem_cons_self
        obtain ⟨_ | key, v, origin⟩ := e
        · rw [walkEntries, evalEntries, Walk.toOption_bind, ← others]
          simp only [bind_pure_comp, Walk.toOption_map]
          cases missing : lenient && isMissing answers v with
          | true =>
            -- The value of the spread is walked through, and left out.
            obtain ⟨rfl, missing⟩ := Bool.and_eq_true_iff.mp missing
            obtain ⟨u, given⟩ := exists_walk_of_isMissing missing
            rw [given]
            exact Option.map_id'
          | false =>
            rw [value]
            rfl
        · rw [walkEntries, evalEntries, Walk.toOption_bind, value, ← others]
          simp only [bind_pure_comp, Walk.toOption_map]
          rfl
    rw [walk, eval, Walk.toOption_bind, each]
    refine congrArg _ (funext fun entries => ?_)
    cases composeResolved entries <;> rfl

end Value

namespace Task

mutual
/-- What is still to be met in a task, and what it will come to. -/
def walk (answers : Answers) (lenient : Bool) : Task → Walk (Option Value)
  | .leaf v => return some v
  | .finished v => return v
  | .failed e => { result := .error e }
  | .site inSpread r _ =>
    return (← r.walk answers lenient).or (if inSpread then none else some .null)
  | .secret inner => return (← walk answers lenient inner).map .secret
  | .join shape parts => do
    let vs ← walkParts answers lenient parts
    { result := (shape.close vs).map some }

def walkParts (answers : Answers) (lenient : Bool) : List Task → Walk (List (Option Value))
  | [] => return []
  | t :: rest => do
    let v ← walk answers lenient t
    return v :: (← walkParts answers lenient rest)
end

variable {answers : Answers} {lenient : Bool}

theorem walk_site (inSpread : Bool) (r : Reference) (stage : Stage) :
    (site inSpread r stage).walk answers lenient = {
      met := [r]
      result :=
        match answers.lookup r with
        | .ok v => .ok (some v)
        | .error e =>
          if lenient then .ok (if inSpread then none else some .null) else .error e } := by
  rw [walk, Reference.walk]
  cases answers.lookup r with
  | ok v => rfl
  | error e => cases lenient <;> rfl

theorem walkParts_finished (vs : List (Option Value)) :
    walkParts answers lenient (vs.map .finished) = pure vs := by
  induction vs with
  | nil => rfl
  | cons v vs ih => rw [List.map_cons, walkParts, ih, walk, pure_bind, pure_bind]

/-- The walk of several parts goes on from that of one when those in front of it have finished. -/
theorem exists_walk_join (shape : Shape) (vs : List (Option Value)) (rest : List Task) :
    ∃ f, ∀ t, (Task.join shape (vs.map finished ++ t :: rest)).walk answers lenient
      = t.walk answers lenient >>= f := by
  have front : ∀ parts, walkParts answers lenient (vs.map finished ++ parts)
      = (vs ++ ·) <$> walkParts answers lenient parts := by
    intro parts
    induction vs with
    | nil => exact (id_map _).symm
    | cons v vs ih =>
      rw [List.map_cons, List.cons_append, walkParts, ih, walk, pure_bind, bind_pure_comp,
        Functor.map_map]
      rfl
  refine ⟨fun v => do
    let us ← walkParts answers lenient rest
    { result := (shape.close (vs ++ v :: us)).map some }, fun t => ?_⟩
  rw [walk, front, walkParts, bind_map_left, bind_assoc]
  refine congrArg _ (funext fun v => ?_)
  rw [bind_pure_comp, bind_map_left]

theorem walk_inSecret (t : Task) :
    (inSecret t).walk answers lenient = Option.map .secret <$> t.walk answers lenient := by
  rw [← bind_pure_comp]
  cases t <;> simp only [inSecret, walk, pure_bind]
  rfl

/-- Drawing parts together meets nothing. -/
theorem walk_ofPolled (shape : Shape) (parts : List Task) :
    (ofPolled shape parts).walk answers lenient = (Task.join shape parts).walk answers lenient := by
  cases h : values? parts with
  | none => rw [ofPolled_of_unfinished h]
  | some vs =>
    have same := values?_eq_some_iff.mp h
    rw [walk, ofPolled, h, same, walkParts_finished, pure_bind]
    dsimp only
    cases shape.close vs <;> rw [walk] <;> rfl

/-- A task that is over has nothing left to meet. -/
theorem walk_of_result {t : Task} {x : Except ResolveError Value} (result : t.result? = some x) :
    (t.walk answers lenient).met = [] ∧
      (t.walk answers lenient).result.map (·.getD .null) = x := by
  cases t with
  | finished v =>
    cases result
    exact ⟨rfl, rfl⟩
  | failed e =>
    cases result
    exact ⟨rfl, rfl⟩
  | _ => cases result

/-! ### The walk of a value -/

/-- A task without parts comes to the same as one that never looks at its parts. -/
theorem walk_ofParts {shape : Shape} {empty : Value} (close : shape.close [] = .ok empty)
    (parts : List Task) :
    (ofParts shape empty parts).walk answers lenient
      = (Task.join shape parts).walk answers lenient := by
  cases parts with
  | nil =>
    rw [ofParts, List.isEmpty_nil, if_pos rfl, walk, walk, walkParts, pure_bind, close]
    rfl
  | cons t rest => rfl

theorem walkParts_ofItems {items : List Value}
    (ih : ∀ v ∈ items, (ofValue v).walk answers lenient = some <$> v.walk answers lenient) :
    List.filterMap id <$> walkParts answers lenient (ofItems items)
      = Value.walkItems answers lenient items := by
  induction items with
  | nil => rfl
  | cons v rest inner =>
    rw [ofItems, walkParts, Value.walkItems, ih v List.mem_cons_self,
      ← inner fun v hv => ih v (List.mem_cons_of_mem _ hv)]
    simp only [map_bind, bind_map_left, map_pure]
    rfl

theorem walkParts_ofFields {fields : List (String × Value)}
    (ih : ∀ f ∈ fields, (ofValue f.2).walk answers lenient = some <$> f.2.walk answers lenient) :
    (fun vs => (Assoc.keys fields).zip (List.filterMap id vs))
        <$> walkParts answers lenient (ofFields fields)
      = Value.walkFields answers lenient fields := by
  induction fields with
  | nil => rfl
  | cons f rest inner =>
    obtain ⟨key, v⟩ := f
    rw [ofFields, walkParts, Value.walkFields, ih _ List.mem_cons_self,
      ← inner fun f hf => ih f (List.mem_cons_of_mem _ hf)]
    simp only [map_bind, bind_map_left, map_pure]
    rfl

theorem walkParts_ofEntries {entries : List (Entry Value)}
    (ih : ∀ e ∈ entries,
      (ofValue e.value).walk answers lenient = some <$> e.value.walk answers lenient ∧
      (ofSpread e.value).walk answers lenient
        = (fun u => if lenient && e.value.isMissing answers then none else some u)
          <$> e.value.walk answers lenient) :
    assemble (entries.map fun e => (e.key, e.origin))
        <$> walkParts answers lenient (ofEntries entries)
      = Value.walkEntries answers lenient entries := by
  induction entries with
  | nil => rfl
  | cons e rest inner =>
    have rest' := inner fun e he => ih e (List.mem_cons_of_mem _ he)
    obtain ⟨value, spread⟩ := ih _ List.mem_cons_self
    obtain ⟨_ | key, v, origin⟩ := e
    · rw [ofEntries, walkParts, Value.walkEntries, spread, ← rest']
      simp only [map_bind, bind_map_left, map_pure]
      cases lenient && v.isMissing answers <;> rfl
    · rw [ofEntries, walkParts, Value.walkEntries, value, ← rest']
      simp only [map_bind, bind_map_left, map_pure]
      rfl

/-- The task of a value comes to what the value does, on the same walk. As the value of a
spread it comes to nothing where it is given up. -/
theorem walk_ofValue_and_ofSpread (v : Value) :
    (ofValue v).walk answers lenient = some <$> v.walk answers lenient ∧
      (ofSpread v).walk answers lenient
        = (fun u => if lenient && v.isMissing answers then none else some u)
          <$> v.walk answers lenient := by
  induction v using Value.induct with
  | scalar s => simp [ofValue, ofSpread, walk, Value.walk, Value.isMissing]
  | reference r =>
    rw [ofValue, ofSpread, walk, walk, Value.walk, Value.isMissing, Reference.walk]
    cases answers.lookup r with
    | ok v => cases lenient <;> exact ⟨rfl, rfl⟩
    | error e => cases lenient <;> exact ⟨rfl, rfl⟩
  | secret inner ih =>
    rw [ofValue, ofSpread, walk, walk, ih.1, ih.2, Value.walk, Value.isMissing]
    simp only [bind_pure_comp, Functor.map_map]
    refine ⟨rfl, congrArg (· <$> _) (funext fun u => ?_)⟩
    split <;> rfl
  | list items ih =>
    have parts := walkParts_ofItems fun v hv => (ih v hv).1
    have whole : (Task.join .list (ofItems items)).walk answers lenient
        = some <$> (Value.list items).walk answers lenient := by
      rw [walk, Value.walk, ← parts]
      simp only [bind_pure_comp, Functor.map_map]
      rfl
    rw [ofValue, ofSpread, walk_ofParts rfl, whole]
    simp [Value.isMissing]
  | map fields ih =>
    have parts := walkParts_ofFields fun f hf => (ih f hf).1
    have whole : (Task.join (.map (Assoc.keys fields)) (ofFields fields)).walk answers lenient
        = some <$> (Value.map fields).walk answers lenient := by
      rw [walk, Value.walk, ← parts]
      simp only [bind_pure_comp, Functor.map_map]
      rfl
    rw [ofValue, ofSpread, walk_ofParts (Shape.close_map_nil _), whole]
    simp [Value.isMissing]
  | ordered entries ih =>
    have parts := walkParts_ofEntries ih
    have whole : (Task.join (.ordered (entries.map fun e => (e.key, e.origin)))
          (ofEntries entries)).walk answers lenient
        = some <$> (Value.ordered entries).walk answers lenient := by
      rw [walk, Value.walk, ← parts]
      simp only [bind_map_left, map_bind]
      refine congrArg _ (funext fun vs => ?_)
      rw [Shape.close_ordered]
      cases composeResolved (assemble _ vs) <;> rfl
    rw [ofValue, ofSpread, walk_ofParts (Shape.close_ordered_nil _), whole]
    simp [Value.isMissing]

end Task

end LayeredConfig
