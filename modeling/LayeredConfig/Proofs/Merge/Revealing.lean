import LayeredConfig.Proofs.Merge.Algebra
import LayeredConfig.Proofs.Value.Revealing

/-!
# Merging looks at secrets

A secret is no plain map, whatever it holds. So where one of two layers has a plain map under a
secret and the other one a plain map, under a secret or not, they are not merged: the later one
replaces the earlier one. `Value.Buries` says that this loses something. Merging commutes with
`reveal` exactly where it does not occur (`mergeLayer_reveal_iff`).
-/

namespace LayeredConfig

namespace Value

theorem asMap?_of_isSecret {v : Value} (hidden : v.isSecret = true) : v.asMap? = none := by
  cases v with
  | map fields => cases hidden
  | _ => rfl

/-- Nothing but a secret turns into a plain map when its secrets are taken off. -/
theorem isSecret_of_reveal {v : Value} {fields : Fields} (other : v.asMap? = none)
    (plain : v.reveal = .map fields) : v.isSecret = true := by
  cases v with
  | secret inner => rfl
  | map fields => cases other
  | list items => rw [reveal_list] at plain; cases plain
  | ordered entries => rw [reveal_ordered] at plain; cases plain
  | _ => cases plain

theorem HasDistinctKeys.reveal {v : Value} (distinct : v.HasDistinctKeys) :
    v.reveal.HasDistinctKeys := by
  induction v using induct with
  | scalar s => exact .scalar s
  | reference r => exact .reference r
  | secret inner ih =>
    cases distinct with
    | secret part => exact ih part
  | list items ih =>
    cases distinct with
    | list parts =>
      rw [reveal_list]
      exact .list (List.forall_mem_map.mpr fun v hv => ih v hv (parts v hv))
  | map fields ih =>
    cases distinct with
    | map keys parts =>
      rw [reveal_map]
      refine .map (by rwa [Assoc.keys_mapValues]) ?_
      exact List.forall_mem_map.mpr fun f hf => ih f hf (parts f hf)
  | ordered entries ih =>
    cases distinct with
    | ordered parts =>
      rw [reveal_ordered]
      exact .ordered (List.forall_mem_map.mpr fun e he => ih e he (parts e he))

/-- What plain maps lead to is still there once the secrets are off. -/
theorem at?_reveal {v u : Value} {path : List String} (found : v.at? path = some u) :
    v.reveal.at? path = some u.reveal := by
  induction path generalizing v with
  | nil =>
    cases found
    rfl
  | cons key rest ih =>
    cases plain : v.asMap? with
    | none => cases (at?_of_asMap?_eq_none plain key rest).symm.trans found
    | some fields =>
      obtain rfl := asMap?_eq_some_iff.mp plain
      rw [at?_map_cons, Option.bind_eq_some_iff] at found
      obtain ⟨part, here, found⟩ := found
      rw [reveal_map, at?_map_cons, Assoc.get?_mapValues, here, Option.map_some,
        Option.bind_some, ih found]

/-- At some path both of two values are plain maps but for secrets, at least one of them is a
secret, and the upper one alone is less than both of them merged. -/
def Buries (upper lower : Value) : Prop :=
  ∃ path x y A B, lower.at? path = some x ∧ upper.at? path = some y ∧
    (x.isSecret = true ∨ y.isSecret = true) ∧ x.reveal = .map A ∧ y.reveal = .map B ∧
    mergeLayer A B ≠ B

/-- What is buried in parts is buried in the plain maps that have them under the same key. -/
theorem Buries.of_part {base overlay : Fields} {key : String} {x y : Value}
    (lower : Assoc.get? base key = some x) (upper : Assoc.get? overlay key = some y)
    (buries : y.Buries x) : (map overlay).Buries (.map base) := by
  obtain ⟨path, u, v, A, B, below, above, loses⟩ := buries
  refine ⟨key :: path, u, v, A, B, ?_, ?_, loses⟩
  · rw [at?_map_cons, lower, Option.bind_some, below]
  · rw [at?_map_cons, upper, Option.bind_some, above]

/-- Values that are not both plain maps, one over the other: without their secrets they come to
the same if the upper one buries nothing. -/
theorem over_reveal_of_asMap?_eq_none {x y : Value} (other : x.asMap? = none ∨ y.asMap? = none)
    (keeps : ¬ y.Buries x) : (x.over y).reveal = x.reveal.over y.reveal := by
  rw [over_of_asMap?_eq_none other]
  cases lower : x.reveal.asMap? with
  | none => rw [over_of_asMap?_eq_none (.inl lower)]
  | some A =>
    cases upper : y.reveal.asMap? with
    | none => rw [over_of_asMap?_eq_none (.inr upper)]
    | some B =>
      rw [asMap?_eq_some_iff] at lower upper
      have hidden : x.isSecret = true ∨ y.isSecret = true :=
        other.imp (isSecret_of_reveal · lower) (isSecret_of_reveal · upper)
      have whole : mergeLayer A B = B := by
        by_contra loses
        exact keeps ⟨[], x, y, A, B, rfl, rfl, hidden, lower, upper, loses⟩
      rw [lower, upper, map_over_map, whole]

theorem over_reveal {x y : Value} (first : x.HasDistinctKeys) (second : y.HasDistinctKeys)
    (keeps : ¬ y.Buries x) : (x.over y).reveal = x.reveal.over y.reveal := by
  induction y using induct generalizing x with
  | map overlay ih =>
    cases below : x.asMap? with
    | none => exact over_reveal_of_asMap?_eq_none (.inl below) keeps
    | some base =>
      obtain rfl := asMap?_eq_some_iff.mp below
      rw [hasDistinctKeys_map] at first second
      have second' : (Assoc.keys (Assoc.mapValues reveal overlay)).Nodup := by
        rw [Assoc.keys_mapValues]
        exact second.1
      rw [map_over_map, reveal_map, reveal_map, reveal_map, map_over_map]
      refine congrArg map (Assoc.eq_of_get?_eq ?_ ?_ ?_)
      · rw [Assoc.keys_mapValues]
        exact nodup_keys_mergeLayer first.1 second.1
      · rw [Assoc.keys_mapValues, keys_mergeLayer second.1, keys_mergeLayer second',
          Assoc.keys_mapValues, Assoc.keys_mapValues]
      · intro key
        rw [Assoc.get?_mapValues, get?_mergeLayer second.1, get?_mergeLayer second',
          Assoc.get?_mapValues, Assoc.get?_mapValues]
        cases upper : Assoc.get? overlay key with
        | none => rfl
        | some v =>
          cases lower : Assoc.get? base key with
          | none => rfl
          | some u =>
            have inside := Assoc.mem_of_get? upper
            refine congrArg some (ih _ inside (first.2 _ (Assoc.mem_of_get? lower))
              (second.2 _ inside) fun buries => keeps (buries.of_part lower upper))
  | _ => exact over_reveal_of_asMap?_eq_none (.inr rfl) keeps

end Value

/-- A layer without its secrets. -/
def Layer.reveal (m : Layer) : Layer where
  fields := Assoc.mapValues Value.reveal m
  distinct := by
    rw [← Value.reveal_map]
    exact m.distinct.reveal

/-- What a layer leads to is still there, without its secrets, once the secrets are off. -/
theorem Layer.at?_reveal {m : Layer} {path : List String} {v : Value}
    (found : (Value.map m).at? path = some v) :
    (Value.map m.reveal).at? path = some v.reveal := by
  have revealed := Value.at?_reveal found
  rwa [Value.reveal_map] at revealed

/-- Where one of two layers has a secret, the later layer decides alone. -/
theorem at?_mergeLayer_of_isSecret {base overlay : Layer} {path : List String} {x y : Value}
    (below : (Value.map base).at? path = some x) (above : (Value.map overlay).at? path = some y)
    (hidden : x.isSecret = true ∨ y.isSecret = true) :
    (Value.map (mergeLayer base overlay)).at? path = some y := by
  rw [at?_mergeLayer_of_at? above, below, Value.overAny, Option.elim_some,
    Value.over_of_asMap?_eq_none
      (hidden.imp Value.asMap?_of_isSecret Value.asMap?_of_isSecret)]

/-- Layers come to the same whether secrets are taken off before they are merged or after,
exactly if the later one buries nothing of the earlier one. Where one of them has a secret, the
later one replaces what the earlier one has, also if both are plain maps but for secrets. -/
theorem mergeLayer_reveal_iff (base overlay : Layer) :
    (Assoc.mapValues Value.reveal (mergeLayer base overlay)
        = mergeLayer (Assoc.mapValues Value.reveal base) (Assoc.mapValues Value.reveal overlay) ↔
      ¬ (Value.map overlay).Buries (.map base)) ∧
      ∀ path x y, (Value.map base).at? path = some x → (Value.map overlay).at? path = some y →
        (x.isSecret = true ∨ y.isSecret = true) →
        (Value.map (mergeLayer base overlay)).at? path = some y := by
  refine ⟨⟨?_, ?_⟩, fun path x y => at?_mergeLayer_of_isSecret⟩
  · rintro same ⟨path, x, y, A, B, below, above, hidden, lower, upper, loses⟩
    -- What stands at the path is the later map alone, or both merged.
    have alone : (Value.map (base.merge overlay).reveal).at? path = some y.reveal :=
      Layer.at?_reveal (at?_mergeLayer_of_isSecret below above hidden)
    have both : (Value.map (mergeLayer base.reveal overlay.reveal)).at? path
        = some (Value.overAny ((Value.map base.reveal).at? path) y.reveal) :=
      at?_mergeLayer_of_at? (Layer.at?_reveal above)
    have merged : (base.merge overlay).reveal.fields
        = mergeLayer base.reveal overlay.reveal := same
    rw [← merged, alone, Layer.at?_reveal below, upper, lower, Value.overAny, Option.elim_some,
      Value.map_over_map, Option.some.injEq, Value.map.injEq] at both
    exact loses both.symm
  · intro keeps
    have laid := Value.over_reveal base.distinct overlay.distinct keeps
    simpa only [Value.map_over_map, Value.reveal_map, Value.map.injEq] using laid

/-- A database whose credentials are secret. -/
def guarded : Layer where
  fields := [("db", .secret (.map [("user", .string "root"), ("password", .string "x")]))]

/-- A later layer that says where the database is. -/
def located : Layer where
  fields := [("db", .map [("host", .string "a")])]

theorem mergeLayer_reveal_iff_credentials :
    (Value.map (mergeLayer guarded located)).at? ["db"] = some (.map [("host", .string "a")]) ∧
      Assoc.mapValues Value.reveal (mergeLayer guarded located)
        ≠ mergeLayer (Assoc.mapValues Value.reveal guarded)
          (Assoc.mapValues Value.reveal located) := by
  obtain ⟨commutes, replaced⟩ := mergeLayer_reveal_iff guarded located
  refine ⟨replaced ["db"] _ _ rfl rfl (.inl rfl), fun same => commutes.mp same ?_⟩
  refine ⟨["db"], _, _, _, _, rfl, rfl, .inl rfl, rfl, rfl, fun whole => ?_⟩
  exact absurd (congrArg List.length whole) (by decide)

end LayeredConfig
