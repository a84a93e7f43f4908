import LayeredConfig.Proofs.Resolution.Start
import LayeredConfig.Proofs.Value.Masking

/-!
# Tasks without what secrets hide

`Task.mask` blanks the scalars beneath secrets in a task, and the errors that it has come to.
Nothing that decides how a run goes on looks at either: neither who can move (`Task.ready_mask`),
nor which parts are over (`Task.isOver_mask`), nor whether an error comes up
(`Task.isSome_surfaced?_mask`), nor what is given back when a task is dropped
(`Task.release_mask`). What parts come to when they are drawn together is masked in the same way
(`Task.ofPolled_mask`).
-/

namespace LayeredConfig

namespace Task

/-- What stands in a mask for every error. -/
def blankError : ResolveError := .spread (.notAMap .null {})

mutual
/-- Blank every scalar beneath a secret, and every error; `hidden` says whether the task itself is
beneath a secret. -/
def mask (hidden : Bool) : Task → Task
  | .leaf v => .leaf (v.mask hidden)
  | .finished v => .finished (v.map (Value.mask hidden))
  | .failed _ => .failed blankError
  | .site inSpread r stage => .site inSpread r stage
  | .secret inner => .secret (mask true inner)
  | .join shape parts => .join shape (maskParts hidden parts)

def maskParts (hidden : Bool) : List Task → List Task
  | [] => []
  | t :: rest => mask hidden t :: maskParts hidden rest
end

theorem maskParts_eq_map (hidden : Bool) (parts : List Task) :
    maskParts hidden parts = parts.map (mask hidden) := by
  induction parts with
  | nil => simp [maskParts]
  | cons t rest ih => rw [maskParts, ih, List.map_cons]

theorem mask_join (hidden : Bool) (shape : Shape) (parts : List Task) :
    (join shape parts).mask hidden = .join shape (parts.map (mask hidden)) := by
  rw [mask, maskParts_eq_map]

/-- What is masked stays as it is. -/
theorem mask_mask (t : Task) (hidden : Bool) : (t.mask hidden).mask hidden = t.mask hidden := by
  induction t using induct generalizing hidden with
  | leaf v => simp [mask, Value.mask_mask]
  | finished v => cases v <;> simp [mask, Value.mask_mask]
  | failed e => simp [mask]
  | site inSpread r stage => simp [mask]
  | secret inner ih => rw [mask, mask, ih]
  | join shape parts ih =>
    rw [mask_join, mask_join, List.map_map]
    exact congrArg (join shape) (List.map_congr_left fun t ht => ih t ht hidden)

/-! ### Tasks of values -/

theorem ofParts_mask (shape : Shape) (empty : Value) (parts : List Task) (hidden : Bool) :
    (ofParts shape empty parts).mask hidden
      = ofParts shape (empty.mask hidden) (parts.map (mask hidden)) := by
  cases parts with
  | nil => simp [ofParts, mask]
  | cons t rest => exact mask_join hidden shape (t :: rest)

/-- The task of a masked value is masked. -/
theorem ofValue_mask_and_ofSpread_mask (v : Value) : ∀ hidden,
    ofValue (v.mask hidden) = (ofValue v).mask hidden ∧
      ofSpread (v.mask hidden) = (ofSpread v).mask hidden := by
  induction v using Value.induct with
  | scalar s => simp [Value.mask, ofValue, ofSpread, mask]
  | reference r => simp [Value.mask, ofValue, ofSpread, mask]
  | secret inner ih => simp [Value.mask, ofValue, ofSpread, mask, ih]
  | list items ih =>
    intro hidden
    have parts : (items.map (Value.mask hidden)).map ofValue
        = (items.map ofValue).map (mask hidden) := by
      rw [List.map_map, List.map_map]
      exact List.map_congr_left fun v hv => (ih v hv hidden).1
    rw [Value.mask_list, ofValue, ofSpread, ofValue, ofSpread, ofItems_eq, ofItems_eq, ofParts_mask,
      Value.mask_list, parts]
    exact ⟨rfl, rfl⟩
  | map fields ih =>
    intro hidden
    have parts : (Assoc.mapValues (Value.mask hidden) fields).map (fun f => ofValue f.2)
        = (fields.map fun f => ofValue f.2).map (mask hidden) := by
      rw [Assoc.mapValues, List.map_map, List.map_map]
      exact List.map_congr_left fun f hf => (ih f hf hidden).1
    rw [Value.mask_map, ofValue, ofSpread, ofValue, ofSpread, ofFields_eq, ofFields_eq,
      ofParts_mask, Value.mask_map, parts, Assoc.keys_mapValues]
    exact ⟨rfl, rfl⟩
  | ordered entries ih =>
    intro hidden
    have parts : (entries.map (Entry.map (Value.mask hidden))).map ofEntry
        = (entries.map ofEntry).map (mask hidden) := by
      rw [List.map_map, List.map_map]
      refine List.map_congr_left fun e he => ?_
      have masked : (Entry.map (Value.mask hidden) e).isSpread = e.isSpread := rfl
      simp only [Function.comp_def, ofEntry, masked]
      split
      · exact (ih e he hidden).2
      · exact (ih e he hidden).1
    have heads : (entries.map (Entry.map (Value.mask hidden))).map (fun e => (e.key, e.origin))
        = entries.map fun e => (e.key, e.origin) := by
      rw [List.map_map]
      rfl
    rw [Value.mask_ordered, ofValue, ofSpread, ofValue, ofSpread, ofEntries_eq, ofEntries_eq,
      ofParts_mask, Value.mask_map, parts, heads]
    exact ⟨rfl, rfl⟩

theorem ofValue_mask (v : Value) (hidden : Bool) :
    ofValue (v.mask hidden) = (ofValue v).mask hidden :=
  (ofValue_mask_and_ofSpread_mask v hidden).1

/-! ### What a run looks at -/

section Observations

variable (hidden : Bool) (t : Task) (parts : List Task)

theorem isFinished_mask : (t.mask hidden).isFinished = t.isFinished := by
  cases t <;> simp [mask, isFinished]

theorem error?_mask : (t.mask hidden).error? = t.error?.map fun _ => blankError := by
  cases t <;> simp [mask, error?]

theorem isOver_mask : (t.mask hidden).isOver = t.isOver := by
  rw [isOver, isOver, isFinished_mask, error?_mask, Option.isSome_map]

theorem any_isOpen_mask (i : Nat) :
    (parts.map (mask hidden))[i]?.any (!·.isOver) = parts[i]?.any (!·.isOver) := by
  rw [List.getElem?_map]
  cases parts[i]? with
  | none => rfl
  | some t => simp [isOver_mask]

theorem countP_isOpen_mask :
    (parts.map (mask hidden)).countP (!·.isOver) = parts.countP (!·.isOver) := by
  rw [List.countP_map]
  exact List.countP_congr fun t _ => by simp [isOver_mask]

/-- What a task has come to: no value if it has failed, and none that was left out. -/
theorem result?_mask : (t.mask hidden).result?.map Except.toOption
    = t.result?.map fun x => x.toOption.map (Value.mask hidden) := by
  cases t with
  | finished v =>
    cases v with
    | none => cases hidden <;> rfl
    | some v => rfl
  | _ => simp [mask, result?, Except.toOption]

/-- Whether parts take turns does not depend on what is hidden. -/
theorem takeTurns_mask (parallel : Bool) (parts : List Task) :
    takeTurns parallel (parts.map (mask hidden)) = takeTurns parallel parts := by
  rw [takeTurns, takeTurns, List.length_map]

/-- Whoever can move stands where no secret reaches. -/
theorem ready_mask (parallel : Bool) (w : World) : ∀ here,
    ready parallel w here (t.mask hidden) = ready parallel w here t := by
  induction t using induct generalizing hidden with
  | leaf v => simp [mask, ready]
  | finished v => simp [mask, ready]
  | failed e => simp [mask, ready]
  | site inSpread r stage => simp [mask]
  | secret inner ih => simpa [mask, ready] using ih true
  | join shape parts ih =>
    intro here
    rw [mask_join, ready, ready, takeTurns_mask]
    generalize (⟨takeTurns parallel parts, 0⟩ : Step) = step
    induction parts generalizing step with
    | nil => rfl
    | cons t rest inner =>
      rw [List.map_cons, readyParts, readyParts, ih t List.mem_cons_self, isFinished_mask,
        inner fun t ht => ih t (List.mem_cons_of_mem _ ht)]

theorem isReady_mask (parallel : Bool) (w : World) (here : Address) (t : Task) :
    (t.mask hidden).isReady parallel w here = t.isReady parallel w here := by
  rw [isReady, isReady, ready_mask]

/-- Nor does it when something is due. -/
theorem moments_mask : (t.mask hidden).moments = t.moments := by
  induction t using induct generalizing hidden with
  | secret inner ih => simpa [mask, moments] using ih true
  | join shape parts ih =>
    rw [mask_join, moments, moments]
    induction parts with
    | nil => rfl
    | cons t rest inner =>
      rw [List.map_cons, momentsOf, momentsOf, ih t List.mem_cons_self,
        inner fun t ht => ih t (List.mem_cons_of_mem _ ht)]
  | _ => simp [mask, moments]

theorem height_mask : (t.mask hidden).height = t.height := by
  induction t using induct generalizing hidden with
  | secret inner ih => simpa [mask, height] using ih true
  | join shape parts ih =>
    rw [mask_join, height, height]
    congr 1
    induction parts with
    | nil => rfl
    | cons t rest inner =>
      rw [List.map_cons, heightOf, heightOf, ih t List.mem_cons_self,
        inner fun t ht => ih t (List.mem_cons_of_mem _ ht)]
  | _ => simp [mask, height]

/-- Nor how much is left to do. -/
theorem remaining_mask : (t.mask hidden).remaining = t.remaining := by
  induction t using induct generalizing hidden with
  | secret inner ih => simpa [mask, remaining] using ih true
  | join shape parts ih =>
    rw [mask_join, remaining, remaining]
    induction parts with
    | nil => rfl
    | cons t rest inner =>
      rw [List.map_cons, remainingOf, remainingOf, ih t List.mem_cons_self,
        inner fun t ht => ih t (List.mem_cons_of_mem _ ht)]
  | _ => simp [mask, remaining]

/-- A masked task holds what the task holds. -/
theorem release_mask (parallel : Bool) : ∀ here,
    release parallel here (t.mask hidden) = release parallel here t := by
  induction t using induct generalizing hidden with
  | secret inner ih =>
    intro here
    funext w
    rw [mask, release, release, ih]
  | join shape parts ih =>
    intro here
    have drops : ∀ step, releases parallel here step (parts.map (mask hidden))
        = releases parallel here step parts := by
      induction parts with
      | nil => exact fun step => rfl
      | cons t rest inner =>
        intro step
        rw [List.map_cons, releases, releases, ih t List.mem_cons_self,
          inner fun t ht => ih t (List.mem_cons_of_mem _ ht)]
    funext w
    rw [mask_join, release, release, takeTurns_mask, drops]
  | _ =>
    intro here
    funext w
    simp [mask, release]

/-- Nor whether an error comes up. -/
theorem isSome_surfaced?_mask (inTurns : Bool) :
    (surfaced? inTurns (parts.map (mask hidden))).isSome = (surfaced? inTurns parts).isSome := by
  induction parts with
  | nil => rfl
  | cons t rest ih =>
    cases inTurns with
    | true =>
      simp only [surfaced?, if_true, List.map_cons, List.find?_cons, isFinished_mask] at ih ⊢
      cases t.isFinished with
      | true => exact ih
      | false => simp [error?_mask]
    | false =>
      simp only [surfaced?, Bool.false_eq_true, if_false, List.map_cons, List.findSome?_cons,
        error?_mask] at ih ⊢
      cases t.error? with
      | none => exact ih
      | some e => rfl

/-- Parts have all come to values, masked or not, and then to the same ones but for what is
hidden. -/
theorem values?_mask : values? (parts.map (mask hidden))
    = (values? parts).map (List.map (Option.map (Value.mask hidden))) := by
  induction parts with
  | nil => rfl
  | cons t rest ih =>
    cases t with
    | finished v =>
      rw [List.map_cons, mask, values?, values?, ih]
      cases values? rest <;> rfl
    | _ => simp [mask, values?]

end Observations

end Task

/-! ### Drawing parts together -/

theorem Task.assemble_mask (heads : List (Option String × Origin)) (vs : List (Option Value))
    (hidden : Bool) : assemble heads (vs.map (Option.map (Value.mask hidden)))
      = (assemble heads vs).map (Entry.map (Value.mask hidden)) := by
  rw [assemble, assemble, List.zip_map_right, List.filterMap_map, List.map_filterMap]
  congr 1
  funext p
  obtain ⟨head, v⟩ := p
  cases v <;> rfl

/-- Masked parts make a value exactly if the parts do, and then the same one, up to what is
masked. -/
theorem Shape.toOption_close_mask (shape : Shape) (vs : List (Option Value)) (hidden : Bool) :
    (shape.close (vs.map (Option.map (Value.mask hidden)))).toOption.map (Value.mask hidden)
      = (shape.close vs).toOption.map (Value.mask hidden) := by
  have present : (vs.map (Option.map (Value.mask hidden))).filterMap id
      = (vs.filterMap id).map (Value.mask hidden) := by
    rw [List.filterMap_map, List.map_filterMap]
    rfl
  cases shape with
  | list =>
    rw [close, close, present, ← Value.mask_list]
    exact congrArg some (Value.mask_mask _ hidden)
  | map keys =>
    have masked : keys.zip ((vs.filterMap id).map (Value.mask hidden))
        = Assoc.mapValues (Value.mask hidden) (keys.zip (vs.filterMap id)) := List.zip_map_right
    rw [close, close, present, masked, ← Value.mask_map]
    exact congrArg some (Value.mask_mask _ hidden)
  | ordered heads =>
    have plain : Value.mask hidden ∘ Value.map
        = Value.map ∘ Assoc.mapValues (Value.mask hidden) :=
      funext fun fields => Value.mask_map hidden fields
    rw [toOption_close_ordered, toOption_close_ordered, Option.map_map, Option.map_map, plain,
      ← Option.map_map, ← Option.map_map, Task.assemble_mask, composeResolved_mask]

namespace Task

theorem inSecret_mask (t : Task) (hidden : Bool) :
    (inSecret t).mask hidden = inSecret (t.mask true) := by
  cases t with
  | finished v => cases v <;> simp [inSecret, mask, Value.mask]
  | _ => simp [inSecret, mask]

/-- Masked parts come to the same as the parts do, up to what is masked. -/
theorem ofPolled_mask (shape : Shape) (parts : List Task) (hidden : Bool) :
    (ofPolled shape (parts.map (mask hidden))).mask hidden
      = (ofPolled shape parts).mask hidden := by
  rw [ofPolled, ofPolled, values?_mask]
  cases values? parts with
  | none =>
    rw [Option.map_none]
    dsimp only
    rw [← mask_join, mask_mask]
  | some vs =>
    rw [Option.map_some]
    dsimp only
    -- The errors of both may differ, but the mask of a failed task does not show its error.
    have closed := shape.toOption_close_mask vs hidden
    cases made : shape.close vs with
    | error e =>
      cases made' : shape.close (vs.map (Option.map (Value.mask hidden))) with
      | error e' => simp [mask]
      | ok u' => rw [made, made'] at closed; cases closed
    | ok u =>
      cases made' : shape.close (vs.map (Option.map (Value.mask hidden))) with
      | error e' => rw [made, made'] at closed; cases closed
      | ok u' =>
        rw [made, made'] at closed
        simp [mask, Option.some.inj closed]

end Task

end LayeredConfig
