import Mathlib.Data.List.DropRight
import LayeredConfig.Merge.Layers
import LayeredConfig.Proofs.Value.DistinctKeys

/-!
Which layer decides what stands at a path.

`Value.at?` walks a path through plain maps. A value that is no plain map stands in the way
of every path that leads through it (`Value.Blocks`). What a layer leaves at a path once it
lies over another one is told by both of them there (`Value.at?_over`), so the last layer
that says anything about a path decides, and where it has a plain map, this one is merged
with those that lie directly below it (`at?_mergeLayers`).

All of this needs distinct keys, so it is said of a `Layer`, and the plain map that a layer
has at a path is one again (`Layer.below`).
-/

namespace LayeredConfig

namespace Value

/-! ### Walking through plain maps -/

/-- Only a plain map has fields. -/
theorem asMap?_eq_some_iff {v : Value} {fields : Fields} :
    v.asMap? = some fields ↔ v = .map fields := by
  cases v <;> simp [asMap?]

/-- What a path leads to through plain maps. -/
def at? : Value → List String → Option Value
  | v, [] => some v
  | v, key :: rest => do
    let part ← Assoc.get? (← v.asMap?) key
    part.at? rest

/-- A value that is no plain map stands in the way of a path, before its end. -/
def Blocks (v : Value) (path : List String) : Prop :=
  ∃ front back u, path = front ++ back ∧ back ≠ [] ∧ v.at? front = some u ∧ u.asMap? = none

section Walks

variable {v part : Value} {fields : Fields} {key : String} {path rest : List String}

@[simp] theorem at?_nil (v : Value) : v.at? [] = some v := rfl

theorem at?_map_cons (fields : Fields) (key : String) (rest : List String) :
    (Value.map fields).at? (key :: rest) = (Assoc.get? fields key).bind (·.at? rest) := rfl

/-- Nothing stands beneath what is no plain map. -/
theorem at?_of_asMap?_eq_none (other : v.asMap? = none) (key : String) (rest : List String) :
    v.at? (key :: rest) = none := by
  rw [at?, other]
  rfl

/-- Nothing stands in the way of a path that is at its end. -/
theorem not_blocks_nil (v : Value) : ¬ v.Blocks [] := by
  rintro ⟨front, back, u, same, some, -⟩
  exact some (List.append_eq_nil_iff.mp same.symm).2

/-- What is no plain map stands in the way of every path that goes on. -/
theorem blocks_of_asMap?_eq_none (other : v.asMap? = none) (key : String) (rest : List String) :
    v.Blocks (key :: rest) :=
  ⟨[], key :: rest, v, rfl, by simp, rfl, other⟩

/-- What blocks a path in a plain map blocks the rest of it in the part under its first key. -/
theorem blocks_map_cons :
    (Value.map fields).Blocks (key :: rest) ↔
      ∃ part, Assoc.get? fields key = some part ∧ part.Blocks rest := by
  constructor
  · rintro ⟨front, back, u, same, some, found, other⟩
    cases front with
    | nil =>
      cases found
      cases other
    | cons key' front =>
      obtain ⟨rfl, rfl⟩ := List.cons.inj same
      rw [at?_map_cons, Option.bind_eq_some_iff] at found
      obtain ⟨part, here, found⟩ := found
      exact ⟨part, here, front, back, u, rfl, some, found, other⟩
  · rintro ⟨part, here, front, back, u, rfl, some, found, other⟩
    exact ⟨key :: front, back, u, rfl, some, by rwa [at?_map_cons, here], other⟩

/-- Nothing stands at the end of a path that is blocked. -/
theorem at?_of_blocks (blocks : v.Blocks path) : v.at? path = none := by
  induction path generalizing v with
  | nil => exact absurd blocks (not_blocks_nil v)
  | cons key rest ih =>
    cases h : v.asMap? with
    | none => exact at?_of_asMap?_eq_none h key rest
    | some fields =>
      obtain rfl := asMap?_eq_some_iff.mp h
      obtain ⟨part, here, blocks⟩ := blocks_map_cons.mp blocks
      rw [at?_map_cons, here]
      exact ih blocks

instance decidableBlocks : ∀ (v : Value) (path : List String), Decidable (v.Blocks path)
  | v, [] => .isFalse (not_blocks_nil v)
  | .map fields, key :: rest =>
    match h : Assoc.get? fields key with
    | none => .isFalse fun blocks => by
        obtain ⟨part, here, -⟩ := blocks_map_cons.mp blocks
        cases h.symm.trans here
    | some part =>
      have := decidableBlocks part rest
      decidable_of_iff (part.Blocks rest) (by simp [blocks_map_cons, h])
  | .scalar _, key :: rest => .isTrue (blocks_of_asMap?_eq_none rfl key rest)
  | .list _, key :: rest => .isTrue (blocks_of_asMap?_eq_none rfl key rest)
  | .ordered _, key :: rest => .isTrue (blocks_of_asMap?_eq_none rfl key rest)
  | .reference _, key :: rest => .isTrue (blocks_of_asMap?_eq_none rfl key rest)
  | .secret _, key :: rest => .isTrue (blocks_of_asMap?_eq_none rfl key rest)

end Walks

end Value

/-! ### One layer over another -/

section OneLayer

variable {existing v : Value} {base overlay : Fields} {key : String} {path : List String}

/-- What does not merge is replaced. -/
theorem Value.over_of_asMap?_eq_none (other : existing.asMap? = none ∨ v.asMap? = none) :
    existing.over v = v := by
  cases v with
  | map overlay =>
    cases existing with
    | map base => simp [asMap?] at other
    | _ => rfl
  | _ => rfl

/-- Two plain maps merge. -/
theorem Value.map_over_map (base overlay : Fields) :
    (Value.map base).over (.map overlay) = .map (mergeLayer base overlay) := by
  rw [Value.over]

/-- A value over what there is, if there is anything. -/
def Value.overAny (existing : Option Value) (v : Value) : Value := existing.elim v (·.over v)

/-- The first key of a layer is written over the same key of what there is, and then the others. -/
theorem mergeLayer_cons (base : Fields) (key : String) (v : Value) (rest : Fields) :
    mergeLayer base ((key, v) :: rest)
      = mergeLayer (Assoc.insert base key (Value.overAny (Assoc.get? base key) v)) rest := by
  rw [mergeLayer]
  cases Assoc.get? base key <;> rfl

/-- Every key of the later layer lies over the same key of the earlier one. -/
theorem get?_mergeLayer (distinct : (Assoc.keys overlay).Nodup) :
    Assoc.get? (mergeLayer base overlay) key
      = match Assoc.get? overlay key with
        | some v => some (Value.overAny (Assoc.get? base key) v)
        | none => Assoc.get? base key := by
  induction overlay generalizing base with
  | nil => simp [mergeLayer]
  | cons f rest ih =>
    obtain ⟨k, v⟩ := f
    obtain ⟨new, distinct⟩ := List.nodup_cons.mp distinct
    rw [mergeLayer_cons, ih distinct, Assoc.get?_insert, Assoc.get?_cons]
    by_cases same : k = key
    · subst same
      simp [Assoc.get?_eq_none_iff.mpr new]
    · simp [same]

/-- A layer over nothing is itself. -/
theorem mergeLayer_nil (distinct : (Assoc.keys overlay).Nodup) :
    mergeLayer [] overlay = overlay := by
  suffices all : ∀ base : Fields, (Assoc.keys (base ++ overlay)).Nodup →
      mergeLayer base overlay = base ++ overlay from all [] distinct
  clear distinct
  induction overlay with
  | nil => simp [mergeLayer]
  | cons f rest ih =>
    intro base distinct
    obtain ⟨k, v⟩ := f
    have new : k ∉ Assoc.keys base := by
      intro old
      simp only [Assoc.keys, List.map_append, List.map_cons] at distinct old
      exact (List.nodup_append.mp distinct).2.2 k old k List.mem_cons_self rfl
    have onward : base ++ (k, v) :: rest = (base ++ [(k, v)]) ++ rest := by simp
    rw [mergeLayer_cons, Assoc.get?_eq_none_iff.mpr new, Assoc.insert_of_new new, onward]
    exact ih _ (onward ▸ distinct)

/-- What stands at a path in a value over another one: what the upper value has there over
what the lower one has, unless the upper one blocks the path or says nothing about it. -/
theorem Value.at?_over (distinct : v.HasDistinctKeys) (existing : Value) (path : List String) :
    (existing.over v).at? path
      = if v.Blocks path then none
        else match v.at? path with
          | some u => some (overAny (existing.at? path) u)
          | none => existing.at? path := by
  induction path generalizing existing v with
  | nil => simp [not_blocks_nil, overAny]
  | cons key rest ih =>
    cases plain : v.asMap? with
    | none =>
      rw [over_of_asMap?_eq_none (.inr plain), at?_of_asMap?_eq_none plain,
        if_pos (blocks_of_asMap?_eq_none plain key rest)]
    | some overlay =>
      obtain rfl := asMap?_eq_some_iff.mp plain
      cases distinct with
      | map keys parts =>
        cases plain' : existing.asMap? with
        | none =>
          rw [over_of_asMap?_eq_none (.inl plain'), at?_of_asMap?_eq_none plain']
          split
          · rename_i blocks
            exact at?_of_blocks blocks
          · cases (Value.map overlay).at? (key :: rest) <;> rfl
        | some base =>
          obtain rfl := asMap?_eq_some_iff.mp plain'
          simp only [map_over_map, at?_map_cons, get?_mergeLayer keys, blocks_map_cons]
          cases above : Assoc.get? overlay key with
          | none => simp
          | some u =>
            have distinct := parts _ (Assoc.mem_of_get? above)
            cases below : Assoc.get? base key with
            | some old => simpa [overAny] using ih distinct old
            | none =>
              simp only [overAny, Option.elim_none, Option.bind_some, Option.some.injEq,
                exists_eq_left', Option.bind_none]
              split
              · rename_i blocks
                exact at?_of_blocks blocks
              · cases u.at? rest <;> rfl

end OneLayer

/-! ### All layers -/

/-- The plain map that a layer has at a path. -/
def Fields.mapAt? (path : List String) (m : Fields) : Option Fields :=
  ((Value.map m).at? path).bind Value.asMap?

/-- A layer says something about a path: it has something there, or blocks it. -/
def Fields.Concerns (path : List String) (m : Fields) : Prop :=
  ((Value.map m).at? path).isSome = true ∨ (Value.map m).Blocks path

/-- Whatever was at a path before a layer is gone after it: the layer blocks the path, or has
something there that is no plain map. -/
def Fields.Replaces (path : List String) (m : Fields) : Prop :=
  (Value.map m).Blocks path ∨ ∃ v, (Value.map m).at? path = some v ∧ v.asMap? = none

instance (path : List String) : DecidablePred (Fields.Replaces path) := fun m =>
  decidable_of_iff ((Value.map m).Blocks path ∨
      ((Value.map m).at? path).any (·.asMap?.isNone) = true) (by
    simp [Fields.Replaces, Option.any_eq_true])

section AllLayers

variable {newer : List Layer} {base : Fields} {m : Layer} {path : List String}

theorem mergeLayers_append (layers newer : List Fields) :
    mergeLayers (layers ++ newer) = newer.foldl mergeLayer (mergeLayers layers) :=
  List.foldl_append

/-- A layer that says nothing about a path leaves it alone. -/
theorem at?_mergeLayer_of_not_concerns (silent : ¬ Fields.Concerns path m) :
    (Value.map (mergeLayer base m)).at? path = (Value.map base).at? path := by
  simp only [Fields.Concerns, not_or, Option.not_isSome_iff_eq_none] at silent
  rw [← Value.map_over_map, Value.at?_over m.distinct, if_neg silent.2, silent.1]

/-- Nothing is left at a path that a layer blocks. -/
theorem at?_mergeLayer_of_blocks (blocks : (Value.map m).Blocks path) :
    (Value.map (mergeLayer base m)).at? path = none := by
  rw [← Value.map_over_map, Value.at?_over m.distinct, if_pos blocks]

/-- What a layer has at a path lies over what was there. -/
theorem at?_mergeLayer_of_at? {v : Value} (found : (Value.map m).at? path = some v) :
    (Value.map (mergeLayer base m)).at? path
      = some (Value.overAny ((Value.map base).at? path) v) := by
  have free : ¬ (Value.map m).Blocks path := fun blocks => by
    cases found.symm.trans (Value.at?_of_blocks blocks)
  rw [← Value.map_over_map, Value.at?_over m.distinct, if_neg free, found]

/-- Layers that say nothing about a path leave it alone. -/
theorem at?_foldl_mergeLayer (silent : ∀ m ∈ newer, ¬ Fields.Concerns path m) :
    (Value.map ((newer.map Layer.fields).foldl mergeLayer base)).at? path
      = (Value.map base).at? path := by
  induction newer generalizing base with
  | nil => rfl
  | cons m rest ih =>
    rw [List.map_cons, List.foldl_cons, ih fun n hn => silent n (List.mem_cons_of_mem _ hn),
      at?_mergeLayer_of_not_concerns (silent m List.mem_cons_self)]

theorem Fields.mapAt?_eq_some_iff {m fields : Fields} :
    m.mapAt? path = some fields ↔ (Value.map m).at? path = some (.map fields) := by
  simp [mapAt?, Option.bind_eq_some_iff, Value.asMap?_eq_some_iff]

/-- What stands at a path of a value with distinct keys has distinct keys itself. -/
theorem Value.HasDistinctKeys.at? {v u : Value} (distinct : v.HasDistinctKeys)
    (found : v.at? path = some u) : u.HasDistinctKeys := by
  induction path generalizing v with
  | nil =>
    cases found
    exact distinct
  | cons key rest ih =>
    cases distinct with
    | map keys parts =>
      rw [at?_map_cons, Option.bind_eq_some_iff] at found
      obtain ⟨part, here, found⟩ := found
      exact ih (parts _ (Assoc.mem_of_get? here)) found
    | _ => cases found

/-- The plain map at a path of a layer is a layer. -/
def Layer.below (m : Layer) {fields : Fields}
    (found : (Value.map m).at? path = some (.map fields)) : Layer where
  fields := fields
  distinct := m.distinct.at? found

/-- A layer over whatever there is merges with it if that is a plain map. -/
theorem Value.overAny_map (existing : Option Value) (m : Layer) :
    overAny existing (.map m) = .map (mergeLayer ((existing.bind asMap?).getD []) m) := by
  cases existing with
  | none => simp [overAny, mergeLayer_nil m.nodup_keys]
  | some old =>
    cases plain : old.asMap? with
    | none =>
      simp [overAny, over_of_asMap?_eq_none (.inl plain), plain, mergeLayer_nil m.nodup_keys]
    | some base =>
      obtain rfl := asMap?_eq_some_iff.mp plain
      simp [overAny, map_over_map, asMap?]

/-- Where a layer has a plain map, it is merged with the one that is there, if there is one. -/
theorem mapAt?_mergeLayer_of_mapAt? {fields : Fields}
    (found : Fields.mapAt? path m = some fields) :
    Fields.mapAt? path (mergeLayer base m)
      = some (mergeLayer ((base.mapAt? path).getD []) fields) := by
  have there := Fields.mapAt?_eq_some_iff.mp found
  rw [Fields.mapAt?_eq_some_iff, at?_mergeLayer_of_at? there, Fields.mapAt?]
  exact congrArg some (Value.overAny_map _ (m.below there))

/-- Where a layer replaces what there is, no plain map is left. -/
theorem mapAt?_mergeLayer_of_replaces (replaces : Fields.Replaces path m) :
    Fields.mapAt? path (mergeLayer base m) = none := by
  rw [Fields.mapAt?]
  obtain blocks | ⟨v, found, other⟩ := replaces
  · rw [at?_mergeLayer_of_blocks blocks, Option.bind_none]
  · rw [at?_mergeLayer_of_at? found, Option.bind_some]
    cases (Value.map base).at? path with
    | none => exact other
    | some old => rwa [Value.overAny, Option.elim_some, Value.over_of_asMap?_eq_none (.inr other)]

/-- A layer that replaces nothing and has no plain map at a path says nothing about it. -/
theorem Fields.not_concerns {m : Fields} (keeps : ¬ m.Replaces path) (none : m.mapAt? path = none) :
    ¬ m.Concerns path := by
  rintro (some | blocks)
  · obtain ⟨v, there⟩ := Option.isSome_iff_exists.mp some
    refine keeps (.inr ⟨v, there, ?_⟩)
    rwa [mapAt?, there] at none
  · exact keeps (.inl blocks)

/-- The plain maps at a path of the layers behind the last one that replaces what is there. -/
def mapsSince (path : List String) (layers : List Fields) : List Fields :=
  (layers.rtakeWhile fun m => ¬ m.Replaces path).filterMap (Fields.mapAt? path)

section Since

variable {layers : List Fields} {m : Fields}

/-- A layer that replaces what there is leaves no plain maps to be merged. -/
theorem mapsSince_of_replaces (replaces : m.Replaces path) :
    mapsSince path (layers ++ [m]) = [] := by
  rw [mapsSince, List.rtakeWhile_concat_neg _ _ _ (by simpa using replaces), List.filterMap_nil]

/-- Any other layer adds its plain map, if it has one. -/
theorem mapsSince_of_not_replaces (keeps : ¬ m.Replaces path) :
    mapsSince path (layers ++ [m]) = mapsSince path layers ++ (m.mapAt? path).toList := by
  rw [mapsSince, List.rtakeWhile_concat_pos _ _ _ (by simpa using keeps), List.filterMap_append]
  cases h : m.mapAt? path <;> simp [mapsSince, h]

end Since

/-- A plain map at a path is the merge of those of the layers that nothing has replaced. -/
theorem mapAt?_mergeLayers (layers : List Layer) (nonempty : path ≠ []) :
    (mergeLayers (layers.map Layer.fields)).mapAt? path
      = if mapsSince path (layers.map Layer.fields) = [] then none
        else some (mergeLayers (mapsSince path (layers.map Layer.fields))) := by
  induction layers using List.reverseRecOn with
  | nil =>
    cases path with
    | nil => exact absurd rfl nonempty
    | cons key rest => rfl
  | append_singleton layers m ih =>
    rw [List.map_append, List.map_singleton, mergeLayers_append, List.foldl_cons, List.foldl_nil]
    by_cases replaces : Fields.Replaces path m
    · rw [mapsSince_of_replaces replaces, if_pos rfl, mapAt?_mergeLayer_of_replaces replaces]
    · rw [mapsSince_of_not_replaces replaces]
      cases found : Fields.mapAt? path m with
      | none =>
        rw [Fields.mapAt?, at?_mergeLayer_of_not_concerns (Fields.not_concerns replaces found),
          ← Fields.mapAt?, ih, Option.toList_none, List.append_nil]
      | some fields =>
        have nonempty : mapsSince path (layers.map Layer.fields) ++ [fields] ≠ [] := by simp
        rw [mapAt?_mergeLayer_of_mapAt? found, Option.toList_some, if_neg nonempty,
          mergeLayers_append, ih]
        split
        · rename_i none
          rw [none]
          rfl
        · rfl

/-- What stands at a path once all layers are merged is settled by the last layer that says
anything about it. It is nothing if there is no such layer, or if this one blocks the path;
its own value, if that is no plain map; and otherwise the merge of the plain maps at the path
of the layers behind the last one that replaces what is there. -/
theorem at?_mergeLayers (layers : List Layer) (path : List String) (nonempty : path ≠ []) :
    let merged := Value.map (mergeLayers (layers.map Layer.fields))
    ((∀ m ∈ layers, ¬ Fields.Concerns path m) → merged.at? path = none) ∧
      ∀ (older : List Layer) (m : Layer) (newer : List Layer), layers = older ++ m :: newer →
        (∀ n ∈ newer, ¬ Fields.Concerns path n) →
        ((Value.map m).Blocks path → merged.at? path = none) ∧
        (∀ v, (Value.map m).at? path = some v → v.asMap? = none → merged.at? path = some v) ∧
        (∀ fields : Fields, (Value.map m).at? path = some (.map fields) →
          merged.at? path
            = some (.map (mergeLayers (mapsSince path (layers.map Layer.fields))))) := by
  constructor
  · intro silent
    rw [mergeLayers, at?_foldl_mergeLayer silent]
    cases path with
    | nil => exact absurd rfl nonempty
    | cons key rest => rfl
  rintro older m newer rfl silent
  have last : (Value.map (mergeLayers ((older ++ m :: newer).map Layer.fields))).at? path
      = (Value.map (mergeLayer (mergeLayers (older.map Layer.fields)) m)).at? path := by
    rw [List.map_append, mergeLayers_append, List.map_cons, List.foldl_cons,
      at?_foldl_mergeLayer silent]
  refine ⟨?_, ?_, ?_⟩
  · intro blocks
    rw [last, at?_mergeLayer_of_blocks blocks]
  · intro v found other
    rw [last, at?_mergeLayer_of_at? found]
    cases (Value.map (mergeLayers (older.map Layer.fields))).at? path with
    | none => rfl
    | some old => rw [Value.overAny, Option.elim_some, Value.over_of_asMap?_eq_none (.inr other)]
  · intro fields found
    have whole := mapAt?_mergeLayers (older ++ m :: newer) nonempty
    have some : (mergeLayers ((older ++ m :: newer).map Layer.fields)).mapAt? path
        = Fields.mapAt? path (mergeLayer (mergeLayers (older.map Layer.fields)) m) := by
      rw [Fields.mapAt?, last, Fields.mapAt?]
    rw [some, mapAt?_mergeLayer_of_mapAt? (Fields.mapAt?_eq_some_iff.mpr found)] at whole
    split at whole
    · cases whole
    · rw [← Fields.mapAt?_eq_some_iff, some, ← whole,
        mapAt?_mergeLayer_of_mapAt? (Fields.mapAt?_eq_some_iff.mpr found)]

/-- Layers of which the second one replaces a map, the third one makes a new one and the last
one adds to that. -/
def renewed : List Layer :=
  [{ fields := [("db", .map [("host", .string "a"), ("user", .string "root")])] },
    { fields := [("db", .null)] },
    { fields := [("db", .map [("port", .string "5432")])] },
    { fields := [("db", .map [("host", .string "b")])] }]

theorem at?_mergeLayers_renewed :
    (Value.map (mergeLayers (renewed.map Layer.fields))).at? ["db"]
      = some (.map [("port", .string "5432"), ("host", .string "b")]) := by
  obtain ⟨-, last⟩ := at?_mergeLayers renewed ["db"] (by decide)
  exact (last (renewed.take 3) { fields := [("db", .map [("host", .string "b")])] } [] rfl
    (by simp)).2.2 _ rfl

end AllLayers

end LayeredConfig
