import LayeredConfig.Proofs.Resolution.Running
import LayeredConfig.Proofs.Value.Induction

/-!
How a run begins.

The task of a value has not been touched (`Task.Unstarted.ofValue`), so it is tidy and orderly,
and in an idle world it holds nothing (`Task.Unstarted.balanced`). So `World.resolve` and
`World.resolveFields` always come to a result (`World.runTask_ends`), and leave the world idle
(`World.runTask_idle`).
-/

namespace LayeredConfig

/-- Nothing is under way: nobody stands in line or has queued, and all permits are there. -/
structure World.IsIdle (w : World) : Prop where
  builders : w.registry.lines = []
  outcomes : w.resolver.lines = []
  queue : w.resolver.queue = []
  permits : w.resolver.free = w.resolver.policy.permits

/-- Another context does not set anything going. -/
theorem World.IsIdle.renew {w : World} (idle : w.IsIdle) (context : Context) :
    World.IsIdle { w with context } :=
  ⟨idle.builders, idle.outcomes, idle.queue, idle.permits⟩

theorem World.isIdle_iff {w : World} : w.IsIdle ↔ Balanced 0 w := by
  rw [balanced_zero_iff]
  exact ⟨fun h => ⟨h.builders, h.outcomes, h.queue, h.permits⟩, fun ⟨a, b, c, d⟩ => ⟨a, b, c, d⟩⟩

namespace Task

variable {parallel : Bool}

/-! ### The task of a value -/

theorem ofItems_eq (items : List Value) : ofItems items = items.map ofValue := by
  induction items with
  | nil => rfl
  | cons v rest ih => rw [ofItems, ih, List.map_cons]

theorem ofFields_eq (fields : List (String × Value)) :
    ofFields fields = fields.map fun f => ofValue f.2 := by
  induction fields with
  | nil => rfl
  | cons f rest ih => rw [ofFields, ih, List.map_cons]

/-- The task of resolving the value of an entry. -/
def ofEntry (e : Entry Value) : Task := if e.isSpread then ofSpread e.value else ofValue e.value

theorem ofEntries_eq (entries : List (Entry Value)) : ofEntries entries = entries.map ofEntry := by
  induction entries with
  | nil => rfl
  | cons e rest ih =>
    obtain ⟨key, v, origin⟩ := e
    cases key <;> simp [ofEntries, ih, ofEntry, Entry.isSpread]

/-- A task that nobody has looked at. -/
inductive Unstarted : Task → Prop where
  | leaf (v : Value) : Unstarted (.leaf v)
  | site (inSpread : Bool) (r : Reference) : Unstarted (.site inSpread r .fresh)
  | secret {inner : Task} (unstarted : Unstarted inner) : Unstarted (.secret inner)
  | join {shape : Shape} {parts : List Task} (some : parts ≠ [])
      (unstarted : ∀ t ∈ parts, Unstarted t) : Unstarted (.join shape parts)

namespace Unstarted

variable {t : Task}

theorem isOver (unstarted : t.Unstarted) : t.isOver = false := by
  cases unstarted <;> rfl

theorem ofParts (shape : Shape) (empty : Value) {parts : List Task}
    (unstarted : ∀ t ∈ parts, Unstarted t) : (ofParts shape empty parts).Unstarted := by
  unfold Task.ofParts
  split
  · exact .leaf empty
  · rename_i some
    exact .join (by simpa using some) unstarted

theorem ofValue_and_ofSpread (v : Value) : (ofValue v).Unstarted ∧ (ofSpread v).Unstarted := by
  induction v using Value.induct with
  | scalar s => exact ⟨.leaf _, .leaf _⟩
  | reference r => exact ⟨.site false r, .site true r⟩
  | secret inner ih => exact ⟨.secret ih.1, .secret ih.2⟩
  | list items ih =>
    have parts : ∀ t ∈ ofItems items, t.Unstarted := by
      rw [ofItems_eq]
      exact List.forall_mem_map.mpr fun v hv => (ih v hv).1
    exact ⟨ofParts _ _ parts, ofParts _ _ parts⟩
  | map fields ih =>
    have parts : ∀ t ∈ ofFields fields, t.Unstarted := by
      rw [ofFields_eq]
      exact List.forall_mem_map.mpr fun f hf => (ih f hf).1
    exact ⟨ofParts _ _ parts, ofParts _ _ parts⟩
  | ordered entries ih =>
    have parts : ∀ t ∈ ofEntries entries, t.Unstarted := by
      rw [ofEntries_eq]
      refine List.forall_mem_map.mpr ?_
      intro e he
      unfold ofEntry
      split
      · exact (ih e he).2
      · exact (ih e he).1
    exact ⟨ofParts _ _ parts, ofParts _ _ parts⟩

theorem ofValue (v : Value) : (ofValue v).Unstarted := (ofValue_and_ofSpread v).1

theorem tidy (unstarted : t.Unstarted) : t.Tidy parallel := by
  induction t using induct with
  | leaf v => exact .leaf v
  | finished v => exact .finished v
  | failed e => exact .failed e
  | site inSpread r stage => exact .site inSpread r stage
  | secret inner ih =>
    cases unstarted with
    | secret unstarted => exact .secret unstarted.isOver (ih unstarted)
  | join shape parts ih =>
    cases unstarted with
    | join some unstarted =>
      obtain ⟨p, hp⟩ := List.exists_mem_of_ne_nil _ some
      have notOver : ∀ t ∈ parts, t.isFinished = false ∧ t.error? = none := fun t ht => by
        have isOpen := (unstarted t ht).isOver
        simp only [Task.isOver, Bool.or_eq_false_iff] at isOpen
        exact ⟨isOpen.1, by simpa using isOpen.2⟩
      refine .join (values?_eq_none_iff.mpr ⟨p, hp, (notOver p hp).1⟩) ?_
        fun t ht => ih t ht (unstarted t ht)
      cases takeTurns parallel parts with
      | false => exact surfaced?_eq_none_iff.mpr fun t ht => (notOver t ht).2
      | true =>
        rw [surfaced?, if_pos rfl, Option.bind_eq_none_iff]
        intro t found
        exact (notOver t (List.mem_of_find?_eq_some found)).2

theorem untouched (unstarted : t.Unstarted) : t.Untouched parallel := by
  induction t using induct with
  | leaf v => simp [Untouched]
  | finished v => simp [Untouched]
  | failed e => simp [Untouched]
  | site inSpread r stage =>
    cases unstarted with
    | site => simp [Untouched]
  | secret inner ih =>
    cases unstarted with
    | secret unstarted => simpa [Untouched] using ih unstarted
  | join shape parts ih =>
    cases unstarted with
    | join some unstarted =>
      intro here s hs
      rw [sites_join] at hs
      obtain ⟨i, t, found, within⟩ := part_of_mem_sitesOf hs
      have inside := List.mem_of_getElem? found
      exact ih t inside (unstarted t inside) _ s within

theorem orderly (unstarted : t.Unstarted) : t.Orderly parallel := by
  induction t using induct with
  | leaf v => exact .leaf v
  | finished v => exact .finished v
  | failed e => exact .failed e
  | site inSpread r stage => exact .site inSpread r stage
  | secret inner ih =>
    cases unstarted with
    | secret unstarted => exact .secret (ih unstarted)
  | join shape parts ih =>
    cases unstarted with
    | join some unstarted =>
      refine .join (fun t ht => ih t ht (unstarted t ht)) (.inr ?_)
      exact List.pairwise_of_forall_mem_list fun _ _ t ht _ => (unstarted t ht).untouched

/-- References that have not begun hold nothing. -/
theorem balanced (unstarted : t.Unstarted) {w : World} (idle : Balanced 0 w) :
    Balanced (t.sites parallel []) w := by
  have fresh : ∀ s ∈ t.sites parallel [], s.stage = .fresh := unstarted.untouched []
  have apart := sites_apart parallel t []
  generalize t.sites parallel [] = S at fresh apart
  induction S using Multiset.induction_on with
  | empty => exact idle
  | cons s S ih =>
    rw [Multiset.map_cons, Multiset.nodup_cons] at apart
    have rest := ih (fun q hq => fresh q (Multiset.mem_cons_of_mem hq)) apart.2
    obtain ⟨a, r, stage⟩ := s
    obtain rfl : stage = .fresh := fresh _ (Multiset.mem_cons_self _ _)
    refine ⟨by simpa using apart, ?_, ?_, ?_, ?_⟩
    · rw [Multiset.filterMap_cons_none (f := Standing.builderSeat) _ _ rfl]
      exact rest.builders
    · rw [Multiset.filterMap_cons_none (f := Standing.outcomeSeat) _ _ rfl]
      exact rest.outcomes
    · simpa [Stage.isQueued] using rest.queue
    · simpa [Stage.isFetching] using rest.permits

end Unstarted

/-- The task of a plain map is fit for an idle world. -/
theorem ofMap_cases (fields : Fields) :
    ofMap fields = .finished (some (.map [])) ∧ fields = [] ∨ (ofMap fields).Unstarted := by
  unfold ofMap
  split
  · rename_i empty
    exact .inl ⟨rfl, by simpa using empty⟩
  · rename_i some
    refine .inr (.join ?_ ?_)
    · rw [ofFields_eq]
      simpa using some
    · rw [ofFields_eq]
      exact List.forall_mem_map.mpr fun f _ => Unstarted.ofValue f.2

end Task

namespace World

variable {w : World}

theorem IsIdle.fit (idle : w.IsIdle) (parallel : Bool) {t : Task} (unstarted : t.Unstarted) :
    t.Fit parallel w :=
  ⟨unstarted.tidy, unstarted.orderly, unstarted.balanced (isIdle_iff.mp idle)⟩

theorem IsIdle.fit_ofMap (idle : w.IsIdle) (parallel : Bool) (fields : Fields) :
    (Task.ofMap fields).Fit parallel w := by
  rcases Task.ofMap_cases fields with ⟨same, -⟩ | unstarted
  · rw [same]
    exact ⟨.finished _, .finished _, by simpa using isIdle_iff.mp idle⟩
  · exact idle.fit parallel unstarted

/-- A run of a task that is fit comes to a result, one look after another. -/
theorem runTask_steps {t : Task} (fit : t.Fit w.resolver.policy.isParallel w) :
    ∃ t' w' x, w.runTask t = (some x, { w' with agenda := {} }) ∧ t'.result? = some x ∧
      Task.Steps w.resolver.policy.isParallel t w t' w' := by
  have enough : t.potential w ≤ t.remaining + 2 := by
    unfold Task.potential
    split <;> omega
  obtain ⟨t', w', x, ran, result, steps⟩ := Task.run_ends (t.remaining + 2) fit enough
  exact ⟨t', w', x, by simp [runTask, ran], result, steps⟩

/-- A run of a task that is fit comes to a result, by what may happen in a run. -/
theorem runTask_ends {t : Task} (fit : t.Fit w.resolver.policy.isParallel w) :
    ∃ t' w' x, w.runTask t = (some x, { w' with agenda := {} }) ∧ t'.result? = some x ∧
      Task.Runs w.resolver.policy.isParallel t w t' w' := by
  obtain ⟨t', w', x, ran, result, steps⟩ := runTask_steps fit
  exact ⟨t', w', x, ran, result, (steps.runs_and_fit fit).1⟩

/-- A run of a task that is fit comes to a result, and leaves nothing under way. -/
theorem runTask_idle {t : Task} (fit : t.Fit w.resolver.policy.isParallel w) :
    ∃ x w', w.runTask t = (some x, w') ∧ w'.IsIdle := by
  obtain ⟨t', w', x, ran, result, runs⟩ := runTask_ends fit
  have balanced := runs.keeps_all Task.balanced_endures fit.balanced
  rw [Task.sites_of_isOver (Task.isOver_of_result result)] at balanced
  exact ⟨x, _, ran, isIdle_iff.mpr (balanced.plan fun _ => {})⟩

end World

end LayeredConfig
