import LayeredConfig.Merge.Layers
import LayeredConfig.Proofs.Merge.Composition
import LayeredConfig.Proofs.Merge.Mapping
import LayeredConfig.Proofs.Value.Induction
import LayeredConfig.Value.Redaction

/-!
# What secrets hide

`Value.mask` blanks every scalar beneath a secret and keeps all else, so two values with the
same mask differ in nothing but scalars beneath secrets. Such values look the same once they
are redacted (`Value.redact_mask`, `eq_of_mask_eq`). Composing and merging do not look at scalars, so
they keep masks the same (`compose_seen`, `mergeLayers_mask`).
-/

namespace LayeredConfig

/-- What does not see a mask tells nothing apart that has the same mask. -/
theorem eq_of_mask_eq {α β : Type} {mask : α → α} {see : α → β} (blind : ∀ a, see (mask a) = see a)
    {a a' : α} (same : mask a = mask a') : see a = see a' := by
  rw [← blind, same, blind]

namespace Value

mutual
/-- Blank every scalar beneath a secret; `hidden` says whether the value itself is beneath
one. -/
def mask (hidden : Bool) : Value → Value
  | .scalar s => .scalar (if hidden then .null else s)
  | .list items => .list (maskItems hidden items)
  | .map fields => .map (maskFields hidden fields)
  | .ordered entries => .ordered (maskEntries hidden entries)
  | .reference r => .reference r
  | .secret inner => .secret (mask true inner)

def maskItems (hidden : Bool) : List Value → List Value
  | [] => []
  | v :: rest => mask hidden v :: maskItems hidden rest

def maskFields (hidden : Bool) : List (String × Value) → List (String × Value)
  | [] => []
  | (key, v) :: rest => (key, mask hidden v) :: maskFields hidden rest

def maskEntries (hidden : Bool) : List (Entry Value) → List (Entry Value)
  | [] => []
  | ⟨key, v, origin⟩ :: rest => ⟨key, mask hidden v, origin⟩ :: maskEntries hidden rest
end

section Containers

variable (hidden : Bool)

theorem mask_list (items : List Value) :
    (list items).mask hidden = .list (items.map (mask hidden)) := by
  rw [mask]
  congr 1
  induction items with
  | nil => rfl
  | cons v rest ih => rw [maskItems, ih, List.map_cons]

theorem mask_map (fields : Fields) :
    (map fields).mask hidden = .map (Assoc.mapValues (mask hidden) fields) := by
  rw [mask]
  congr 1
  induction fields with
  | nil => rfl
  | cons f rest ih =>
    rw [maskFields, ih]
    rfl

theorem mask_ordered (entries : List (Entry Value)) :
    (ordered entries).mask hidden = .ordered (entries.map (Entry.map (mask hidden))) := by
  rw [mask]
  congr 1
  induction entries with
  | nil => rfl
  | cons e rest ih =>
    rw [maskEntries, ih]
    rfl

end Containers

/-- What is masked stays as it is. -/
theorem mask_mask (v : Value) (hidden : Bool) : (v.mask hidden).mask hidden = v.mask hidden := by
  induction v using induct generalizing hidden with
  | scalar s => cases hidden <;> rfl
  | reference r => rfl
  | secret inner ih => rw [mask, mask, ih]
  | list items ih =>
    rw [mask_list, mask_list, List.map_map]
    exact congrArg list (List.map_congr_left fun v hv => ih v hv hidden)
  | map fields ih =>
    rw [mask_map, mask_map, Assoc.mapValues, Assoc.mapValues, List.map_map]
    exact congrArg map (List.map_congr_left fun f hf => by simp [ih f hf hidden])
  | ordered entries ih =>
    rw [mask_ordered, mask_ordered, List.map_map]
    exact congrArg ordered (List.map_congr_left fun e he => by simp [Entry.map, ih e he hidden])

/-! ### Redaction -/

theorem redact_list (items : List Value) : (list items).redact = .list (items.map redact) := by
  rw [redact]
  congr 1
  induction items with
  | nil => rfl
  | cons v rest ih => rw [redactItems, ih, List.map_cons]

theorem redact_map (fields : Fields) :
    (map fields).redact = .map (Assoc.mapValues redact fields) := by
  rw [redact]
  congr 1
  induction fields with
  | nil => rfl
  | cons f rest ih =>
    rw [redactFields, ih]
    rfl

theorem redact_ordered (entries : List (Entry Value)) :
    (ordered entries).redact = .ordered (entries.map (Entry.map redact)) := by
  rw [redact]
  congr 1
  induction entries with
  | nil => rfl
  | cons e rest ih =>
    rw [redactEntries, ih]
    rfl

/-- Redaction hides what the mask blanks. -/
theorem redact_mask (v : Value) : (v.mask false).redact = v.redact := by
  induction v using induct with
  | scalar s => rfl
  | reference r => rfl
  -- What is beneath a secret is masked, but redaction does not look there.
  | secret inner => rw [mask, redact, redact]
  | list items ih =>
    rw [mask_list, redact_list, redact_list, List.map_map]
    exact congrArg list (List.map_congr_left fun v hv => ih v hv)
  | map fields ih =>
    rw [mask_map, redact_map, redact_map, Assoc.mapValues, Assoc.mapValues, Assoc.mapValues,
      List.map_map]
    exact congrArg map (List.map_congr_left fun f hf => by simp [ih f hf])
  | ordered entries ih =>
    rw [mask_ordered, redact_ordered, redact_ordered, List.map_map]
    exact congrArg ordered (List.map_congr_left fun e he => by simp [Entry.map, ih e he])

/-! ### Plain maps -/

/-- The fields of a masked map are masked. -/
theorem asMap?_mask (v : Value) (hidden : Bool) :
    (v.mask hidden).asMap? = v.asMap?.map (Assoc.mapValues (mask hidden)) := by
  cases v with
  | map fields => rw [mask_map, asMap?, asMap?, Option.map_some]
  | _ => rfl

theorem keyedFields_mask (entries : List (Entry Value)) (hidden : Bool) :
    keyedFields (entries.map (Entry.map (mask hidden)))
      = Assoc.mapValues (mask hidden) (keyedFields entries) := by
  have written : ∀ (pairs : List (String × Value)) (m : Fields),
      (pairs.map fun p => (p.1, p.2.mask hidden)).foldl (fun m p => Assoc.insert m p.1 p.2)
          (Assoc.mapValues (mask hidden) m)
        = Assoc.mapValues (mask hidden)
          (pairs.foldl (fun m p => Assoc.insert m p.1 p.2) m) := by
    intro pairs
    induction pairs with
    | nil => exact fun m => rfl
    | cons p pairs ih =>
      intro m
      rw [List.map_cons, List.foldl_cons, List.foldl_cons, Assoc.insert_mapValues, ih]
  have keyed : (entries.map (Entry.map (mask hidden))).filterMap (fun e => e.key.map (·, e.value))
      = (entries.filterMap fun e => e.key.map (·, e.value)).map
        fun p => (p.1, p.2.mask hidden) := by
    rw [List.filterMap_map, List.map_filterMap]
    congr 1
    funext e
    simp [Entry.map, Function.comp_def]
  rw [keyedFields, keyed]
  exact written _ []

/-- Which kind of map entries make does not depend on what is masked. -/
theorem ofEntries_mask (entries : List (Entry Value)) (hidden : Bool) :
    (ofEntries entries).mask hidden = ofEntries (entries.map (Entry.map (mask hidden))) := by
  have spreads : (entries.map (Entry.map (mask hidden))).any Entry.isSpread
      = entries.any Entry.isSpread := by
    rw [List.any_map]
    rfl
  rw [ofEntries, ofEntries, spreads, keyedFields_mask]
  split
  · rw [mask_ordered]
  · rw [mask_map]

end Value

/-! ### Composition -/

section Composition

variable {σ : Type} {hidden : Bool}

/-- What is seen of a composition: the state after it, nothing of an error, and of the fields
what no secret hides. -/
def Composing.seen (hidden : Bool) (c : Composing σ Fields) (s : σ) : Option Fields × σ :=
  ((c.outcome s).1.toOption.map (Assoc.mapValues (Value.mask hidden)), (c.outcome s).2)

/-- Of what follows a composition no more is seen than of the composition. -/
theorem seen_bind {c c' : Composing σ Fields} {f f' : Fields → Composing σ Fields} {s : σ}
    (first : c.seen hidden s = c'.seen hidden s)
    (next : ∀ m m' s, Assoc.mapValues (Value.mask hidden) m
      = Assoc.mapValues (Value.mask hidden) m' → (f m).seen hidden s = (f' m').seen hidden s) :
    (c >>= f).seen hidden s = (c' >>= f').seen hidden s := by
  unfold Composing.seen at first ⊢
  obtain ⟨results, states⟩ := Prod.mk.inj first
  cases ended : c.outcome s with
  | mk x v =>
    cases ended' : c'.outcome s with
    | mk x' v' =>
      rw [ended, ended'] at results states
      obtain rfl : v = v' := states
      cases x with
      | error e =>
        cases x' with
        | error e' => rw [outcome_bind_of_error ended, outcome_bind_of_error ended']; rfl
        | ok m' => cases results
      | ok m =>
        cases x' with
        | error e' => cases results
        | ok m' =>
          rw [outcome_bind_of_ok ended, outcome_bind_of_ok ended']
          exact next m m' v (Option.some.inj results)

/-- What is seen of secret fields. -/
theorem seen_secret (c : Composing σ Fields) (s : σ) :
    (Assoc.mapValues .secret <$> c).seen hidden s
      = (c.seen true s).map (Option.map (Assoc.mapValues .secret)) id := by
  have beneath : Assoc.mapValues (Value.mask hidden) ∘ Assoc.mapValues Value.secret
      = Assoc.mapValues Value.secret ∘ Assoc.mapValues (Value.mask true) := by
    funext fields
    simp [Assoc.mapValues, Value.mask]
  unfold Composing.seen
  rw [outcome_map]
  cases (c.outcome s).1 with
  | error e => rfl
  | ok m => exact Prod.ext (congrArg some (congrFun beneath m)) rfl

variable (resolve : Reference → Composing σ Fields)

/-- Applying masked entries is seen as applying the entries, if this is so of each spread. -/
theorem composeOnto_seen {entries : List (Entry Value)}
    (spreads : ∀ e ∈ entries, ∀ origin s,
      (spreadFields resolve origin (e.value.mask hidden)).seen hidden s
        = (spreadFields resolve origin e.value).seen hidden s) :
    ∀ m m' s, Assoc.mapValues (Value.mask hidden) m = Assoc.mapValues (Value.mask hidden) m' →
      (composeOnto resolve m (entries.map (Entry.map (Value.mask hidden)))).seen hidden s
        = (composeOnto resolve m' entries).seen hidden s := by
  induction entries with
  | nil =>
    intro m m' s same
    exact Prod.ext (congrArg some same) rfl
  | cons e entries ih =>
    intro m m' s same
    have ih := ih fun e he => spreads e (List.mem_cons_of_mem _ he)
    have here := spreads e List.mem_cons_self
    obtain ⟨_ | key, v, origin⟩ := e
    · rw [List.map_cons, Entry.map, composeOnto, composeOnto]
      refine seen_bind (here origin s) fun fields fields' s alike => ih _ _ s ?_
      rw [← writeLast_mapValues, same, alike, writeLast_mapValues]
    · rw [List.map_cons, Entry.map, composeOnto, composeOnto]
      refine ih _ _ s ?_
      rw [← Assoc.insertLast_mapValues, same, Value.mask_mask, Assoc.insertLast_mapValues]

/-- What a masked spread contributes is seen as what the spread contributes. -/
theorem spreadFields_seen (v : Value) : ∀ hidden origin s,
    (spreadFields resolve origin (v.mask hidden)).seen hidden s
      = (spreadFields resolve origin v).seen hidden s := by
  induction v using Value.induct with
  | scalar s => exact fun hidden origin s => rfl
  | reference r => exact fun hidden origin s => rfl
  | list items => exact fun hidden origin s => rfl
  | map fields =>
    intro hidden origin s
    rw [Value.mask_map, spreadFields, spreadFields]
    refine Prod.ext (congrArg some ?_) rfl
    simp [Assoc.mapValues, Value.mask_mask]
  | ordered entries ih =>
    intro hidden origin s
    rw [Value.mask_ordered, spreadFields, spreadFields]
    exact composeOnto_seen resolve (fun e he => ih e he hidden) [] [] s rfl
  | secret inner ih =>
    intro hidden origin s
    rw [Value.mask, spreadFields, spreadFields, bind_pure_comp, bind_pure_comp, seen_secret,
      seen_secret, ih]

/-- Composing masked entries is seen as composing the entries, whoever resolves references. -/
theorem compose_seen (entries : List (Entry Value)) (hidden : Bool) (s : σ) :
    (compose resolve (entries.map (Entry.map (Value.mask hidden)))).seen hidden s
      = (compose resolve entries).seen hidden s :=
  composeOnto_seen resolve (fun e _ => spreadFields_seen resolve e.value hidden) [] [] s rfl

end Composition

/-- Masked entries compose exactly if the entries do, and then to the same, up to what secrets
hide. -/
theorem composeResolved_mask (entries : List (Entry Value)) (hidden : Bool) :
    (composeResolved (entries.map (Entry.map (Value.mask hidden)))).toOption.map
        (Assoc.mapValues (Value.mask hidden))
      = (composeResolved entries).toOption.map (Assoc.mapValues (Value.mask hidden)) :=
  congrArg Prod.fst (compose_seen rejectReference entries hidden ())

/-! ### Layers -/

/-- A masked layer over a masked layer. -/
theorem mergeLayer_mask_of {overlay : Fields} {hidden : Bool}
    (laid : ∀ f ∈ overlay, ∀ existing : Value,
      (existing.mask hidden).over (f.2.mask hidden) = (existing.over f.2).mask hidden)
    (base : Fields) :
    mergeLayer (Assoc.mapValues (Value.mask hidden) base)
        (Assoc.mapValues (Value.mask hidden) overlay)
      = Assoc.mapValues (Value.mask hidden) (mergeLayer base overlay) := by
  induction overlay generalizing base with
  | nil => rfl
  | cons f rest ih =>
    obtain ⟨key, v⟩ := f
    have here : ∀ existing : Value, (existing.mask hidden).over (v.mask hidden)
        = (existing.over v).mask hidden := laid _ List.mem_cons_self
    have ih := ih fun f hf => laid f (List.mem_cons_of_mem _ hf)
    have whole : Assoc.mapValues (Value.mask hidden) ((key, v) :: rest)
        = (key, v.mask hidden) :: Assoc.mapValues (Value.mask hidden) rest := rfl
    rw [whole, mergeLayer, mergeLayer, Assoc.get?_mapValues]
    cases Assoc.get? base key with
    | none =>
      dsimp only [Option.map_none]
      rw [Assoc.insert_mapValues, ih]
    | some existing =>
      dsimp only [Option.map_some]
      rw [here, Assoc.insert_mapValues, ih]

/-- A masked value over a masked value. -/
theorem over_mask (v existing : Value) (hidden : Bool) :
    (existing.mask hidden).over (v.mask hidden) = (existing.over v).mask hidden := by
  induction v using Value.induct generalizing existing with
  | map fields ih =>
    cases existing with
    | map base =>
      rw [Value.mask_map, Value.mask_map, Value.over, Value.over, Value.mask_map]
      exact congrArg Value.map (mergeLayer_mask_of ih base)
    | _ => rw [Value.mask_map]; exact (Value.mask_map hidden fields).symm
  | _ => simp [Value.over, Value.mask]

/-- Masked layers merge to the masked fields. -/
theorem mergeLayers_mask (layers : List Fields) (hidden : Bool) :
    mergeLayers (layers.map (Assoc.mapValues (Value.mask hidden)))
      = Assoc.mapValues (Value.mask hidden) (mergeLayers layers) := by
  have merged : ∀ base, (layers.map (Assoc.mapValues (Value.mask hidden))).foldl mergeLayer
        (Assoc.mapValues (Value.mask hidden) base)
      = Assoc.mapValues (Value.mask hidden) (layers.foldl mergeLayer base) := by
    induction layers with
    | nil => exact fun base => rfl
    | cons layer layers ih =>
      intro base
      rw [List.map_cons, List.foldl_cons, List.foldl_cons,
        mergeLayer_mask_of fun f _ existing => over_mask f.2 existing hidden, ih]
  exact merged []

end LayeredConfig
