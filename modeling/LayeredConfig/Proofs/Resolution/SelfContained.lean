import LayeredConfig.Proofs.Resolution.Attribution
import LayeredConfig.Proofs.Resolution.FirstLook
import LayeredConfig.Proofs.Resolution.Warnings
import LayeredConfig.Proofs.Value.Resolved

/-!
# Values that ask for nothing

Resolving a value without references makes no call and sends no warning, whatever the
schedule (`Task.Runs.traceless`). A task that yields a value without an answer from anywhere
comes to it at the first look, unless the context is interrupted (`World.runTask_holds`). The
task of a resolved value is of this kind, and yields nothing but that value
(`Task.yields_ofValue_iff`).
-/

namespace LayeredConfig

/-! ### Without references -/

/-- Whether a value has references is told by the references that it has. -/
theorem Value.references_eq_nil_iff {v : Value} : v.references = [] ↔ v.hasReferences = false := by
  induction v using induct with
  | scalar s => simp [references, hasReferences]
  | reference r => simp [references, hasReferences]
  | secret inner ih => rw [references, hasReferences, ih]
  | list items ih =>
    rw [references, hasReferences]
    induction items with
    | nil => simp [referencesOfItems, anyReferences]
    | cons v rest inner =>
      rw [referencesOfItems, anyReferences, List.append_eq_nil_iff, Bool.or_eq_false_iff,
        ih v List.mem_cons_self, inner fun v hv => ih v (List.mem_cons_of_mem _ hv)]
  | map fields ih =>
    rw [references, hasReferences]
    induction fields with
    | nil => simp [referencesOfFields, fieldReferences]
    | cons f rest inner =>
      rw [referencesOfFields, fieldReferences, List.append_eq_nil_iff, Bool.or_eq_false_iff,
        ih f List.mem_cons_self, inner fun f hf => ih f (List.mem_cons_of_mem _ hf)]
  | ordered entries ih =>
    rw [references, hasReferences]
    induction entries with
    | nil => simp [referencesOfEntries, entryReferences]
    | cons e rest inner =>
      rw [referencesOfEntries, entryReferences, List.append_eq_nil_iff, Bool.or_eq_false_iff,
        ih e List.mem_cons_self, inner fun e he => ih e (List.mem_cons_of_mem _ he)]

namespace Task

variable {parallel : Bool}

/-- The task of a value without references has none on their way. -/
theorem sites_ofValue_eq_zero {v : Value} (none : v.hasReferences = false) (here : Address) :
    (ofValue v).sites parallel here = 0 := by
  have all : ((ofValue v).sites parallel here).map Standing.reference = ↑v.references :=
    (references_ofValue_and_ofSpread v here).1
  rw [Value.references_eq_nil_iff.mpr none] at all
  exact Multiset.map_eq_zero.mp all

section Silence

variable {here : Address} {t t' : Task} {w w' : World}

/-- Only references make anything happen that leaves a trace. -/
theorem Moves.traceless (moves : Moves parallel here t w t' w')
    (none : t.sites parallel here = 0) :
    t'.sites parallel here = 0 ∧ w'.trace = w.trace := by
  induction moves with
  | rest => exact ⟨none, rfl⟩
  | turn => exact ⟨none, rfl⟩
  | trans first next ih ih' =>
    obtain ⟨none', same⟩ := ih none
    obtain ⟨none'', same'⟩ := ih' none'
    exact ⟨none'', same'.trans same⟩
  | leaf live => exact ⟨sites_finished _ _, rfl⟩
  | stop interrupted => exact ⟨sites_failed _ _, rfl⟩
  | site move => simp at none
  | secret moves tidy ih =>
    rw [sites_secret] at none
    rw [sites_inSecret]
    exact ih none
  | @part here shape parts i t t' w w' found calm turn isOpen moves tidy ih =>
    -- What the whole has none of, neither the part nor the others have.
    obtain ⟨F, before, after⟩ := sites_join_set found here
    have whole := before 0
    rw [none, add_zero, zero_add, eq_comm] at whole
    have others : F = 0 := Multiset.le_zero.mp (whole ▸ Multiset.le_add_right F _)
    obtain ⟨none', same⟩ := ih (Multiset.le_zero.mp (whole ▸ Multiset.le_add_left _ F))
    have whole' := after 0 t'
    rw [zero_add, zero_add, others, none', add_zero] at whole'
    exact ⟨whole', same⟩
  | close calm => exact ⟨(sites_ofPolled _).trans none, rfl⟩
  | fail found => exact ⟨sites_failed _ _, release_trace ..⟩

/-- A run without references leaves no trace: no call is made, and no warning sent. -/
theorem Runs.traceless (runs : Runs parallel t w t' w') (none : t.sites parallel [] = 0) :
    t'.sites parallel [] = 0 ∧ w'.trace = w.trace := by
  induction runs with
  | trans first next ih ih' =>
    obtain ⟨none', same⟩ := ih none
    obtain ⟨none'', same'⟩ := ih' none'
    exact ⟨none'', same'.trans same⟩
  | moves moves => exact moves.traceless none
  | _ => exact ⟨none, rfl⟩

end Silence

/-! ### Without answers -/

/-- A task yields a value, though no reference has an answer. -/
def Holds (t : Task) (v : Option Value) : Prop := t.Yields (fun _ _ => False) false v

section Yields

variable {R : Reference → Except ResolveError Value → Prop} {lenient : Bool} {shape : Shape}
  {parts : List Task} {x : Option Value}

theorem yields_join_iff : (Task.join shape parts).Yields R lenient x ↔
    ∃ vs u, List.Forall₂ (Yields R lenient) parts vs ∧ shape.close vs = .ok u ∧ x = some u := by
  constructor
  · rintro (_ | _ | _ | _ | _ | ⟨all, closes⟩)
    exact ⟨_, _, all, closes, rfl⟩
  · rintro ⟨vs, u, all, closes, rfl⟩
    exact .join all closes

/-- A task without parts yields what it would yield if it looked at them. -/
theorem yields_ofParts_iff {empty : Value} (close : shape.close [] = .ok empty) :
    (ofParts shape empty parts).Yields R lenient x ↔
      (Task.join shape parts).Yields R lenient x := by
  cases parts with
  | cons t rest => rfl
  | nil =>
    rw [yields_join_iff]
    constructor
    · rintro (_ | _)
      exact ⟨[], _, .nil, close, rfl⟩
    · rintro ⟨vs, u, all, closes, rfl⟩
      cases all
      cases close.symm.trans closes
      exact .leaf _

/-- Parts each of which yields one value yield one list of values. -/
theorem forall₂_yields_iff {α : Type} {l : List α} {f : α → Task} {g : α → Value}
    (only : ∀ a ∈ l, ∀ x, (f a).Yields R lenient x ↔ x = some (g a)) {vs : List (Option Value)} :
    List.Forall₂ (Yields R lenient) (l.map f) vs ↔ vs = l.map fun a => some (g a) := by
  induction l generalizing vs with
  | nil => simp
  | cons a l ih =>
    have ih := @ih fun b hb => only b (List.mem_cons_of_mem _ hb)
    cases vs with
    | nil => simp
    | cons v vs => simp [only a List.mem_cons_self, ih]

/-- If parts make one value, nothing else is made of them. -/
theorem exists_close_iff {shape : Shape} {vs₀ : List (Option Value)} {u : Value}
    (closes : shape.close vs₀ = .ok u) :
    (∃ vs v, vs = vs₀ ∧ shape.close vs = .ok v ∧ x = some v) ↔ x = some u := by
  constructor
  · rintro ⟨vs, v, rfl, closed, rfl⟩
    rw [closes] at closed
    cases closed
    rfl
  · rintro rfl
    exact ⟨_, _, rfl, closes, rfl⟩

/-- The task of a resolved value yields that value, and nothing else. -/
theorem yields_ofValue_iff {u : Value} (resolved : u.IsResolved) :
    (ofValue u).Yields R lenient x ↔ x = some u := by
  induction resolved generalizing x with
  | scalar s =>
    rw [ofValue]
    constructor
    · rintro (_ | _)
      rfl
    · rintro rfl
      exact .leaf _
  | @list items all ih =>
    have closes : Shape.close .list (items.map some) = .ok (.list items) := by
      simp [Shape.close, List.filterMap_map]
    rw [ofValue, yields_ofParts_iff rfl, yields_join_iff, ofItems_eq]
    simp only [forall₂_yields_iff fun v hv _ => ih v hv]
    exact exists_close_iff closes
  | @map fields all ih =>
    have closes : Shape.close (.map (Assoc.keys fields)) (fields.map fun f => some f.2)
        = .ok (.map fields) := by
      have values : (fields.map fun f => some f.2).filterMap id = fields.map (·.2) := by
        rw [List.filterMap_map]
        simp
      rw [Shape.close, values, Assoc.keys, List.zip_map']
      simp
    rw [ofValue, yields_ofParts_iff (Shape.close_map_nil _), yields_join_iff, ofFields_eq]
    simp only [forall₂_yields_iff fun f hf _ => ih f hf]
    exact exists_close_iff closes
  | @secret inner inside ih =>
    rw [ofValue]
    constructor
    · rintro (_ | _ | _ | _ | below)
      rw [ih.mp below]
      rfl
    · rintro rfl
      exact .secret (ih.mpr rfl)

end Yields

/-! ### The first look -/

/-- A way of moving tasks by which whatever has not begun, and yields a value without answers,
comes to that value if the context is live. -/
def IsSettling (parallel : Bool) (height : Nat) (move : Mover) : Prop :=
  ∀ t v, t.height ≤ height → t.Unstarted → t.Holds v →
    ComesTo parallel none move t (.finished v)

section Parts

variable {move : Mover} {here : Address} {height : Nat}

/-- In order, one part after the other comes to its value. -/
theorem pollInOrder_settles (settling : IsSettling parallel height move) {parts : List Task}
    {vs : List (Option Value)} (all : List.Forall₂ Holds parts vs) :
    ∀ i w, (∀ t ∈ parts, t.height ≤ height) → (∀ t ∈ parts, t.Unstarted) →
      IsAwakeFrom parallel here i parts w → w.interruption? = none →
      (pollInOrder parallel move here i parts w).1 = vs.map .finished ∧
        PutsOffBelow here w (pollInOrder parallel move here i parts w).2 := by
  induction all with
  | nil => exact fun i w _ _ _ _ => ⟨rfl, .refl here w⟩
  | @cons t v rest vs holds others ih =>
    intro i w low unstarted awake live
    obtain ⟨came, put⟩ := settling t v (low t List.mem_cons_self)
      (unstarted t List.mem_cons_self) holds (⟨false, i⟩ :: here) w awake.head live
    rw [pollInOrder]
    generalize move (⟨false, i⟩ :: here) t w = moved at came put ⊢
    obtain ⟨t', w'⟩ := moved
    obtain rfl : t' = _ := came
    have goesOn : ((Task.finished v).isFinished ||
        (parallel && !(Task.finished v).isOver)) = true := rfl
    dsimp only
    rw [goesOn, if_pos rfl]
    obtain ⟨came', put'⟩ := ih (i + 1) w' (fun t ht => low t (List.mem_cons_of_mem _ ht))
      (fun t ht => unstarted t (List.mem_cons_of_mem _ ht)) (awake.next put)
      (put.interruption?_eq.trans live)
    exact ⟨by rw [came', List.map_cons], put.of_part.trans put'⟩

/-- No error comes up from parts that have not begun or have finished. -/
theorem surfaced?_eq_none {parts : List Task} (inTurns : Bool)
    (fresh : ∀ t ∈ parts, t.Unstarted ∨ t.isFinished = true) : surfaced? inTurns parts = none := by
  refine Option.eq_none_iff_forall_not_mem.mpr fun e found => ?_
  obtain ⟨t, ht, failed⟩ := exists_of_surfaced found
  rw [error?_eq_some_iff] at failed
  rcases fresh t ht with unstarted | atEnd
  · rw [failed] at unstarted
    cases unstarted
  · rw [failed] at atEnd
    cases atEnd

/-- Parts that have all finished have come to the values that they hold. -/
theorem eq_map_finished {parts : List Task} {vs : List (Option Value)}
    (all : List.Forall₂ Holds parts vs) (atEnd : ∀ t ∈ parts, t.isFinished = true) :
    parts = vs.map .finished := by
  induction all with
  | nil => rfl
  | @cons t v rest vs holds others ih =>
    rw [List.map_cons, ← ih fun t ht => atEnd t (List.mem_cons_of_mem _ ht)]
    have finished := atEnd t List.mem_cons_self
    cases holds with
    | finished => rfl
    | _ => cases finished

/-- In turns, one part comes to its value in each round, until all have. -/
theorem pollInTurns_settles (settling : IsSettling parallel height move) (rounds : Nat) :
    ∀ parts vs w, List.Forall₂ Holds parts vs → (∀ t ∈ parts, t.height ≤ height) →
      (∀ t ∈ parts, t.Unstarted ∨ t.isFinished = true) → AreAwake parallel here parts w →
      w.interruption? = none → parts.countP (!·.isOver) = rounds →
      (pollInTurns parallel move here rounds parts w).1 = vs.map .finished ∧
        PutsOffBelow here w (pollInTurns parallel move here rounds parts w).2 := by
  induction rounds with
  | zero =>
    intro parts vs w all _ fresh _ _ count
    refine ⟨eq_map_finished all fun t ht => (fresh t ht).resolve_left fun unstarted => ?_,
      .refl here w⟩
    have atEnd := List.countP_eq_zero.mp count t ht
    simp [unstarted.isOver] at atEnd
  | succ rounds ih =>
    intro parts vs w all low fresh awake live count
    obtain ⟨t, ht, isOpen⟩ := List.countP_pos_iff.mp (by omega : 0 < parts.countP (!·.isOver))
    obtain ⟨j, found⟩ := List.getElem?_of_mem ht
    have attended := putsOffBelow_attend here w
    -- The round ends with one part at its value; the others are as they were, and still awake.
    obtain ⟨k, p, w', there, isOpen', round, put, still⟩ := pollRound_comesTo
      (fun k => .finished (vs[k]?.join)) (fun k p there isOpen => by
        have inside := List.mem_of_getElem? there
        have unstarted : p.Unstarted := (fresh p inside).resolve_right fun atEnd => by
          simp [isOver, atEnd] at isOpen
        obtain ⟨v, value, holds, -⟩ := forall₂_set all there
        rw [value]
        exact ⟨unstarted, rfl, settling p v (low p inside) unstarted holds⟩)
      awake.attend live found (by simpa using isOpen) rounds 0
    obtain ⟨v, value, holds, replace⟩ := forall₂_set all there
    simp only [value, Option.join_some] at round still
    have fresh' : ∀ q ∈ parts.set k (.finished v), q.Unstarted ∨ q.isFinished = true :=
      forall_mem_set fresh (.inr rfl)
    have low' : ∀ q ∈ parts.set k (.finished v), q.height ≤ height :=
      forall_mem_set low ((height_pos p).trans_le (low p (List.mem_of_getElem? there)))
    have live' := (attended.trans put).interruption?_eq.trans live
    have fewer : (parts.set k (.finished v)).countP (!·.isOver) = rounds := by
      have less := countP_isOpen_set (.finished v) there isOpen' rfl
      omega
    obtain ⟨came, put'⟩ := ih _ vs w' (replace _ (.finished v)) low' fresh' still live' fewer
    rw [pollInTurns]
    simp only [count, round, surfaced?_eq_none true fresh']
    exact ⟨came, (attended.trans put).trans put'⟩

/-- Moving the parts of a task that has not begun brings all of them to their values. -/
theorem pollParts_settles (settling : IsSettling parallel height move) {shape : Shape}
    {parts : List Task} {vs : List (Option Value)} {w : World} (all : List.Forall₂ Holds parts vs)
    (low : ∀ t ∈ parts, t.height ≤ height) (unstarted : ∀ t ∈ parts, t.Unstarted)
    (awake : IsAwake parallel here (.join shape parts) w) (live : w.interruption? = none) :
    (pollParts parallel move here parts w).1 = vs.map .finished ∧
      PutsOffBelow here w (pollParts parallel move here parts w).2 := by
  unfold pollParts
  cases turns : takeTurns parallel parts with
  | true =>
    rw [if_pos rfl]
    exact pollInTurns_settles settling _ parts vs w all low (fun t ht => .inl (unstarted t ht))
      (awake.areAwake turns) live rfl
  | false =>
    rw [if_neg Bool.false_ne_true]
    rw [IsAwake, ready, turns] at awake
    exact pollInOrder_settles settling all 0 w low unstarted awake live

end Parts

/-- What has not begun, and yields a value without answers, comes to that value at the first
look. -/
theorem pollWithin_settles (parallel : Bool) (height : Nat) :
    IsSettling parallel height (pollWithin parallel height) := by
  induction height with
  | zero =>
    intro t v low
    exact absurd (height_pos t) (by omega)
  | succ height ih =>
    intro t v low unstarted holds here w awake live
    cases unstarted with
    | leaf u =>
      cases holds
      rw [pollWithin, live]
      exact ⟨rfl, .refl here w⟩
    | site inSpread r =>
      cases holds with
      | found answer => cases answer
      | givenUp allowed => cases allowed
    | @secret inner unstarted =>
      cases holds with
      | @secret _ u inside =>
        rw [Task.height] at low
        have awake' : IsAwake parallel here inner w := by simpa [IsAwake, ready] using awake
        obtain ⟨came, put⟩ := ih inner u (by omega) unstarted inside here w awake' live
        rw [pollWithin]
        dsimp only
        rw [came]
        exact ⟨rfl, put⟩
    | @join shape parts some unstarted =>
      obtain ⟨vs, u, all, closes, rfl⟩ := yields_join_iff.mp holds
      have low' := height_le_of_join low
      obtain ⟨came, put⟩ := pollParts_settles ih all low' unstarted awake live
      have calm : ∀ b, surfaced? b (vs.map .finished) = none := fun b =>
        surfaced?_eq_none b (List.forall_mem_map.mpr fun v _ => .inr rfl)
      rw [pollWithin]
      dsimp only
      rw [came, calm]
      dsimp only
      rw [ofPolled, values?_eq_some_iff.mpr rfl]
      dsimp only
      rw [closes]
      exact ⟨rfl, put⟩

end Task

namespace World

variable {w : World}

/-- A run that has not begun, and yields a value without answers, comes to it at once, unless the
context is interrupted. Nothing happens in the world. -/
theorem runTask_holds {t : Task} {u : Value} (live : w.interruption? = none)
    (unstarted : t.Unstarted) (holds : t.Holds (some u)) :
    w.runTask t = (some (.ok u), { w with agenda := {} }) :=
  runTask_comesTo unstarted rfl
    (live ▸ Task.pollWithin_settles _ _ t (some u) le_rfl unstarted holds)

end World

end LayeredConfig
