import LayeredConfig.Proofs.Merge.Precedence

/-!
# The algebra of layers

Merging is associative but for one thing: a layer may put something else in the place of a
plain map, and a later one may put a plain map there again. Merged from the left, what the
first layer has there is gone; merged from the right, it is still there when the third layer
comes. `Value.Severs` names this situation.

Main results:

* `Value.over_assoc`, `mergeLayer_assoc`: wherever nothing is severed, the order of merging does
  not matter.
* `Value.over_self`, `mergeLayer_self`: a layer over itself changes nothing, so neither does a
  layer that comes twice.
* `keys_mergeLayer`: known keys stay where they are, and new ones follow in the order of the later
  layer. Each law is one of equality, so of the order of keys too.
* `Layer.merge`, `hasDistinctKeys_mergeLayers`: merged layers are a layer, however many they are.
-/

namespace LayeredConfig

section Keys

variable {base overlay : Fields}

/-- Known keys keep their places, and new ones follow in the order of the later layer. -/
theorem keys_mergeLayer (distinct : (Assoc.keys overlay).Nodup) (base : Fields) :
    Assoc.keys (mergeLayer base overlay)
      = Assoc.keys base ++ (Assoc.keys overlay).filter (· ∉ Assoc.keys base) := by
  induction overlay generalizing base with
  | nil => simp [mergeLayer, Assoc.keys]
  | cons f rest ih =>
    obtain ⟨key, v⟩ := f
    obtain ⟨new, distinct⟩ := List.nodup_cons.mp distinct
    have whole : Assoc.keys ((key, v) :: rest) = key :: Assoc.keys rest := rfl
    rw [mergeLayer_cons, ih distinct, Assoc.keys_insert, whole]
    by_cases known : key ∈ Assoc.keys base
    · rw [if_pos known, List.filter_cons_of_neg (by simpa using known)]
    · -- The key is written once, so no later key is dropped on its account.
      have others : (Assoc.keys rest).filter (· ∉ Assoc.keys base ++ [key])
          = (Assoc.keys rest).filter (· ∉ Assoc.keys base) := by
        refine List.filter_congr fun other there => ?_
        have apart : other ≠ key := fun same => new (same ▸ there)
        simp [apart]
      rw [if_neg known, others, List.filter_cons_of_pos (by simpa using known), List.append_assoc]
      rfl

theorem nodup_keys_mergeLayer (distinct : (Assoc.keys base).Nodup)
    (distinct' : (Assoc.keys overlay).Nodup) : (Assoc.keys (mergeLayer base overlay)).Nodup := by
  rw [keys_mergeLayer distinct']
  refine List.nodup_append.mpr ⟨distinct, distinct'.filter _, ?_⟩
  rintro key known other new rfl
  simp [known] at new

end Keys

namespace Value

/-- A value over another one keeps keys distinct at every depth. -/
theorem HasDistinctKeys.over {x y : Value} (below : x.HasDistinctKeys)
    (above : y.HasDistinctKeys) : (x.over y).HasDistinctKeys := by
  induction y using induct generalizing x with
  | map overlay ih =>
    cases plain : x.asMap? with
    | none => rwa [over_of_asMap?_eq_none (.inl plain)]
    | some base =>
      obtain rfl := asMap?_eq_some_iff.mp plain
      rw [hasDistinctKeys_map] at below above
      have keys := nodup_keys_mergeLayer below.1 above.1
      rw [map_over_map]
      refine .map keys fun ⟨key, v⟩ inside => ?_
      have found := (Assoc.mem_iff_get? keys).mp inside
      rw [get?_mergeLayer above.1] at found
      cases upper : Assoc.get? overlay key with
      | none =>
        rw [upper] at found
        exact below.2 _ (Assoc.mem_of_get? found)
      | some u =>
        have there := Assoc.mem_of_get? upper
        rw [upper, Option.some.injEq] at found
        cases lower : Assoc.get? base key with
        | none =>
          rw [lower] at found
          exact found ▸ above.2 _ there
        | some old =>
          rw [lower] at found
          exact found ▸ ih _ there (below.2 _ (Assoc.mem_of_get? lower)) (above.2 _ there)
  | _ => rwa [over_of_asMap?_eq_none (.inr rfl)]

/-! ### A layer over itself -/

theorem over_self {v : Value} (distinct : v.HasDistinctKeys) : v.over v = v := by
  induction v using induct with
  | map fields ih =>
    obtain ⟨keys, parts⟩ := hasDistinctKeys_map.mp distinct
    rw [map_over_map]
    refine congrArg map (Assoc.eq_of_get?_eq (nodup_keys_mergeLayer keys keys) ?_ ?_)
    · rw [keys_mergeLayer keys, List.append_right_eq_self, List.filter_eq_nil_iff]
      simp
    · intro key
      rw [get?_mergeLayer keys]
      cases here : Assoc.get? fields key with
      | none => rfl
      | some part =>
        have inside := Assoc.mem_of_get? here
        exact congrArg some (ih _ inside (parts _ inside))
  | _ => exact over_of_asMap?_eq_none (.inl rfl)

/-! ### Three layers -/

/-- At some path a value has something that is no plain map, where two others have plain maps:
the one that it lies over, and the one that lies over it. -/
def Severs (middle lower upper : Value) : Prop :=
  ∃ path A C u, lower.at? path = some (.map A) ∧ upper.at? path = some (.map C) ∧
    middle.at? path = some u ∧ u.asMap? = none

/-- Nothing is severed from what is no plain map. -/
theorem not_severs_of_asMap?_eq_none {x : Value} (other : x.asMap? = none) (y z : Value) :
    ¬ y.Severs x z := by
  rintro ⟨_ | ⟨key, rest⟩, A, C, u, below, -⟩
  · cases below
    cases other
  · cases (at?_of_asMap?_eq_none other key rest).symm.trans below

/-- A plain map severs two others where the parts under one key do so. -/
theorem severs_map_iff {a b c : Fields} :
    (map b).Severs (.map a) (.map c) ↔
      ∃ key x y z, Assoc.get? a key = some x ∧ Assoc.get? b key = some y ∧
        Assoc.get? c key = some z ∧ y.Severs x z := by
  constructor
  · rintro ⟨_ | ⟨key, rest⟩, A, C, u, below, above, between, other⟩
    · cases between
      cases other
    · simp only [at?_map_cons, Option.bind_eq_some_iff] at below above between
      obtain ⟨x, lower, below⟩ := below
      obtain ⟨z, upper, above⟩ := above
      obtain ⟨y, middle, between⟩ := between
      exact ⟨key, x, y, z, lower, middle, upper, rest, A, C, u, below, above, between, other⟩
  · rintro ⟨key, x, y, z, lower, middle, upper, path, A, C, u, below, above, between, other⟩
    refine ⟨key :: path, A, C, u, ?_, ?_, ?_, other⟩
    · rw [at?_map_cons, lower, Option.bind_some, below]
    · rw [at?_map_cons, upper, Option.bind_some, above]
    · rw [at?_map_cons, middle, Option.bind_some, between]

/-- Plain maps merge in either order if the values that all three have under one key do. -/
theorem mergeLayer_assoc_of {a b c : Fields} (first : (Assoc.keys a).Nodup)
    (second : (Assoc.keys b).Nodup) (third : (Assoc.keys c).Nodup)
    (parts : ∀ key x y z, Assoc.get? a key = some x → Assoc.get? b key = some y →
      Assoc.get? c key = some z → (x.over y).over z = x.over (y.over z)) :
    mergeLayer (mergeLayer a b) c = mergeLayer a (mergeLayer b c) := by
  have later := nodup_keys_mergeLayer second third
  refine Assoc.eq_of_get?_eq
    (nodup_keys_mergeLayer (nodup_keys_mergeLayer first second) third) ?_ ?_
  · rw [keys_mergeLayer third, keys_mergeLayer later, keys_mergeLayer second,
      keys_mergeLayer third, List.filter_append, List.filter_filter, List.append_assoc]
    congr 2
    refine List.filter_congr fun key _ => ?_
    by_cases known : key ∈ Assoc.keys a <;> by_cases next : key ∈ Assoc.keys b <;>
      simp [known, next]
  · intro key
    rw [get?_mergeLayer third, get?_mergeLayer later, get?_mergeLayer second,
      get?_mergeLayer third]
    cases below : Assoc.get? a key with
    | none => cases Assoc.get? b key <;> cases Assoc.get? c key <;> rfl
    | some x =>
      cases between : Assoc.get? b key with
      | none => cases Assoc.get? c key <;> rfl
      | some y =>
        cases above : Assoc.get? c key with
        | none => rfl
        | some z => exact congrArg some (parts key x y z below between above)

/-- Values lie over each other in either order, unless the middle one severs the other two. -/
theorem over_assoc {x y z : Value} (first : x.HasDistinctKeys) (second : y.HasDistinctKeys)
    (third : z.HasDistinctKeys) (joined : ¬ y.Severs x z) :
    (x.over y).over z = x.over (y.over z) := by
  induction z using induct generalizing x y with
  | map c ih =>
    cases between : y.asMap? with
    | none =>
      have lower : x.asMap? = none := by
        refine Option.eq_none_iff_forall_not_mem.mpr fun a plain => joined ?_
        exact ⟨[], a, c, y, congrArg some (asMap?_eq_some_iff.mp plain), rfl, rfl, between⟩
      rw [over_of_asMap?_eq_none (.inr between), over_of_asMap?_eq_none (.inl between),
        over_of_asMap?_eq_none (.inl lower)]
    | some b =>
      obtain rfl := asMap?_eq_some_iff.mp between
      cases below : x.asMap? with
      | none => rw [over_of_asMap?_eq_none (.inl below), over_of_asMap?_eq_none (.inl below)]
      | some a =>
        obtain rfl := asMap?_eq_some_iff.mp below
        rw [hasDistinctKeys_map] at first second third
        simp only [map_over_map]
        refine congrArg map (mergeLayer_assoc_of first.1 second.1 third.1 ?_)
        intro key x y z lower middle upper
        have inside := Assoc.mem_of_get? upper
        refine ih _ inside (first.2 _ (Assoc.mem_of_get? lower))
          (second.2 _ (Assoc.mem_of_get? middle)) (third.2 _ inside) fun severs => joined ?_
        exact severs_map_iff.mpr ⟨key, x, y, z, lower, middle, upper, severs⟩
  | _ =>
    rw [over_of_asMap?_eq_none (.inr rfl), over_of_asMap?_eq_none (.inr rfl),
      over_of_asMap?_eq_none (.inr rfl)]

/-- A value does not sever itself from another one. -/
theorem not_severs_self (x y : Value) : ¬ y.Severs x y := by
  rintro ⟨path, A, C, u, -, above, between, other⟩
  cases above.symm.trans between
  cases other

end Value

/-- Layers over each other make a layer again. -/
def Layer.merge (base overlay : Layer) : Layer where
  fields := mergeLayer base overlay
  distinct := by
    rw [← Value.map_over_map]
    exact base.distinct.over overlay.distinct

/-- However many layers are merged, no key comes twice. -/
theorem hasDistinctKeys_mergeLayers (layers : List Layer) :
    (Value.map (mergeLayers (layers.map Layer.fields))).HasDistinctKeys := by
  have onto : ∀ base : Layer,
      (layers.map Layer.fields).foldl mergeLayer base = (layers.foldl Layer.merge base).fields := by
    induction layers with
    | nil => exact fun _ => rfl
    | cons m rest ih => exact fun base => ih (base.merge m)
  rw [mergeLayers, onto { fields := [] }]
  exact (layers.foldl Layer.merge _).distinct

/-- Three layers merge in either order, unless the middle one severs the other two. -/
theorem mergeLayer_assoc (a b c : Layer) (joined : ¬ (Value.map b).Severs (.map a) (.map c)) :
    mergeLayer (mergeLayer a b) c = mergeLayer a (mergeLayer b c) := by
  have laid := Value.over_assoc a.distinct b.distinct c.distinct joined
  simpa only [Value.map_over_map, Value.map.injEq] using laid

/-- A layer over itself is itself. -/
theorem mergeLayer_self (m : Layer) : mergeLayer m m = m := by
  simpa only [Value.map_over_map, Value.map.injEq] using Value.over_self m.distinct

/-- Layers merge in either order unless the middle one severs the other two; a layer that comes
twice changes nothing more, and neither does one over itself or the empty one. At every level
known keys keep their places, and new ones follow in the order of the later layer. -/
theorem mergeLayer_algebra (a b c : Layer) :
    (¬ (Value.map b).Severs (.map a) (.map c) →
        mergeLayer (mergeLayer a b) c = mergeLayer a (mergeLayer b c)) ∧
      mergeLayer (mergeLayer a b) b = mergeLayer a b ∧ mergeLayer a a = a ∧
      mergeLayer [] a = a ∧ mergeLayer a [] = a ∧
      ∀ path A B, (Value.map a).at? path = some (.map A) →
        (Value.map b).at? path = some (.map B) →
        ∃ M, (Value.map (mergeLayer a b)).at? path = some (.map M) ∧
          Assoc.keys M = Assoc.keys A ++ (Assoc.keys B).filter (· ∉ Assoc.keys A) := by
  refine ⟨mergeLayer_assoc a b c, ?_, mergeLayer_self a, mergeLayer_nil a.nodup_keys,
    by rw [mergeLayer], ?_⟩
  · rw [mergeLayer_assoc a b b (Value.not_severs_self _ _), mergeLayer_self b]
  · intro path A B below above
    refine ⟨mergeLayer A B, ?_, keys_mergeLayer (b.below above).nodup_keys A⟩
    rw [at?_mergeLayer_of_at? above, below, Value.overAny, Option.elim_some, Value.map_over_map]

/-- The settings of a service as they are shipped. -/
def shipped : Layer where
  fields :=
    [("db", .map [("host", .string "a"), ("user", .string "root")]), ("log", .string "on")]

/-- What a site changes of them. -/
def atSite : Layer where
  fields :=
    [("db", .map [("port", .string "5432"), ("host", .list [.string "b"])]), ("cache", .map [])]

/-- What a host changes of them. -/
def onHost : Layer where
  fields :=
    [("log", .map [("level", .string "info")]),
      ("db", .map [("host", .map [("name", .string "c")]), ("user", .null)])]

theorem mergeLayer_algebra_settings :
    mergeLayer (mergeLayer shipped atSite) onHost
        = mergeLayer shipped (mergeLayer atSite onHost) ∧
      mergeLayer shipped (mergeLayer atSite onHost)
        = [("db", .map [("host", .map [("name", .string "c")]), ("user", .null),
            ("port", .string "5432")]),
          ("log", .map [("level", .string "info")]), ("cache", .map [])] := by
  -- All three have a database. Of its entries the shipped settings and those of the host share
  -- the host and the user, which are no plain maps as shipped.
  have joined : ¬ (Value.map atSite).Severs (.map shipped) (.map onHost) := by
    rw [Value.severs_map_iff]
    rintro ⟨key, x, y, z, lower, middle, upper, severs⟩
    have inside := Assoc.mem_of_get? lower
    simp only [shipped, List.mem_cons, Prod.mk.injEq, List.not_mem_nil, or_false] at inside
    rcases inside with ⟨rfl, rfl⟩ | ⟨rfl, rfl⟩
    · cases middle
      cases upper
      obtain ⟨key, x, y, z, lower, -, -, severs⟩ := Value.severs_map_iff.mp severs
      have inside := Assoc.mem_of_get? lower
      simp only [List.mem_cons, Prod.mk.injEq, List.not_mem_nil, or_false] at inside
      rcases inside with ⟨-, rfl⟩ | ⟨-, rfl⟩
      · exact Value.not_severs_of_asMap?_eq_none rfl _ _ severs
      · exact Value.not_severs_of_asMap?_eq_none rfl _ _ severs
    · exact Value.not_severs_of_asMap?_eq_none rfl _ _ severs
  exact ⟨(mergeLayer_algebra shipped atSite onHost).1 joined, rfl⟩

/-- Between two databases a `null` severs them: from the left the first one is gone, from the
right it is still there. -/
example :
    let db : Fields := [("db", .map [("host", .string "a")])]
    mergeLayer (mergeLayer db [("db", .null)]) [("db", .map [])] = [("db", .map [])] ∧
      mergeLayer db (mergeLayer [("db", .null)] [("db", .map [])]) = db :=
  ⟨rfl, rfl⟩

end LayeredConfig
