import Mathlib.Data.List.Nodup
import LayeredConfig.Proofs.Value.Induction

/-!
# Distinct keys

No map has a key twice. Where a map stands on its own this could be a part of its type, but a
value has maps in it which have values in them, and a type cannot be nested in a structure that
also holds a proof about it. So maps are raw lists of pairs, and the invariant is stated beside
them:

* `Assoc.nodup_keys_insert`, `Assoc.nodup_keys_insertLast` and `Assoc.nodup_keys_filterMap` say
  that writing and filtering keep keys distinct, and `Assoc.mem_iff_get?` and
  `Assoc.perm_iff_get?` that such a map is told by what a lookup sees.
* `Value.HasDistinctKeys` is the invariant of a value, at every depth.
* A `Layer` carries it: the fields of a plain map that keeps the invariant.
-/

namespace LayeredConfig

/-! ### Keyed values -/

namespace Assoc

variable {α β : Type} {m n : Assoc α} {key : String}

/-- A key that is written is there once, whether it was known before or not. -/
theorem nodup_keys_insert (distinct : (keys m).Nodup) (key : String) (v : α) :
    (keys (insert m key v)).Nodup := by
  rw [keys_insert]
  split
  · exact distinct
  · rename_i new
    refine List.nodup_append.mpr ⟨distinct, List.nodup_singleton key, ?_⟩
    rintro other there _ last rfl
    exact new (List.mem_singleton.mp last ▸ there)

/-- A key that is written at the end stands nowhere else. -/
theorem nodup_keys_insertLast (distinct : (keys m).Nodup) (key : String) (v : α) :
    (keys (insertLast m key v)).Nodup := by
  rw [keys_insertLast]
  exact List.nodup_append.mpr ⟨distinct.filter _, List.nodup_singleton key, by simp⟩

/-- Dropping and replacing values keeps keys distinct. -/
theorem nodup_keys_filterMap (distinct : (keys m).Nodup) (find : α → Option β) :
    (keys (m.filterMap fun p => (find p.2).map (p.1, ·))).Nodup := by
  refine distinct.sublist ?_
  clear distinct
  induction m with
  | nil => exact .slnil
  | cons p m ih => cases found : find p.2 <;> simp_all [keys]

/-- Where keys are distinct, a lookup sees every pair. -/
theorem mem_iff_get? (distinct : (keys m).Nodup) {v : α} :
    (key, v) ∈ m ↔ get? m key = some v := by
  refine ⟨fun there => ?_, mem_of_get?⟩
  induction m with
  | nil => cases there
  | cons p m ih =>
    obtain ⟨new, distinct⟩ := List.nodup_cons.mp distinct
    rw [get?_cons]
    rcases List.mem_cons.mp there with same | there
    · rw [← same, if_pos rfl]
    · have other : p.1 ≠ key := by
        rintro rfl
        exact new (List.mem_map.mpr ⟨_, there, rfl⟩)
      rw [if_neg other, ih distinct there]

/-- Distinct keys with the same values, in whatever order. -/
theorem perm_iff_get? (distinct : (keys m).Nodup) (distinct' : (keys n).Nodup) :
    m.Perm n ↔ ∀ key, get? m key = get? n key := by
  rw [List.perm_ext_iff_of_nodup (.of_map _ distinct) (.of_map _ distinct')]
  constructor
  · intro same key
    refine Option.ext fun v => ?_
    rw [← mem_iff_get? distinct, same, mem_iff_get? distinct']
  · rintro same ⟨key, v⟩
    rw [mem_iff_get? distinct, same, mem_iff_get? distinct']

/-- What is found under a key of the values that are kept. -/
theorem get?_filterMap (distinct : (keys m).Nodup) (find : α → Option β) (key : String) :
    get? (m.filterMap fun p => (find p.2).map (p.1, ·)) key = (get? m key).bind find := by
  induction m with
  | nil => rfl
  | cons p m ih =>
    obtain ⟨new, distinct⟩ := List.nodup_cons.mp distinct
    have below := ih distinct
    rw [get?_cons]
    by_cases here : p.1 = key
    · subst here
      rw [get?_eq_none_iff.mpr new] at below
      cases found : find p.2 <;> simp [found, get?_cons, below]
    · cases found : find p.2 <;> simp [found, get?_cons, here, below]

end Assoc

/-! ### Values -/

/-- A value all of whose plain maps have distinct keys. -/
inductive Value.HasDistinctKeys : Value → Prop where
  | scalar (s : Scalar) : HasDistinctKeys (.scalar s)
  | list {items : List Value} (parts : ∀ v ∈ items, HasDistinctKeys v) :
      HasDistinctKeys (.list items)
  | map {fields : Fields} (keys : (Assoc.keys fields).Nodup)
      (parts : ∀ f ∈ fields, HasDistinctKeys f.2) : HasDistinctKeys (.map fields)
  | ordered {entries : List (Entry Value)} (parts : ∀ e ∈ entries, HasDistinctKeys e.value) :
      HasDistinctKeys (.ordered entries)
  | reference (r : Reference) : HasDistinctKeys (.reference r)
  | secret {inner : Value} (part : HasDistinctKeys inner) : HasDistinctKeys (.secret inner)

namespace Value

@[simp] theorem hasDistinctKeys_scalar (s : Scalar) : (scalar s).HasDistinctKeys := .scalar s

@[simp] theorem hasDistinctKeys_list {items : List Value} :
    (list items).HasDistinctKeys ↔ ∀ v ∈ items, v.HasDistinctKeys :=
  ⟨fun | .list parts => parts, .list⟩

@[simp] theorem hasDistinctKeys_map {fields : Fields} :
    (map fields).HasDistinctKeys ↔
      (Assoc.keys fields).Nodup ∧ ∀ f ∈ fields, f.2.HasDistinctKeys :=
  ⟨fun | .map keys parts => ⟨keys, parts⟩, fun ⟨keys, parts⟩ => .map keys parts⟩

@[simp] theorem hasDistinctKeys_ordered {entries : List (Entry Value)} :
    (ordered entries).HasDistinctKeys ↔ ∀ e ∈ entries, e.value.HasDistinctKeys :=
  ⟨fun | .ordered parts => parts, .ordered⟩

@[simp] theorem hasDistinctKeys_reference (r : Reference) : (reference r).HasDistinctKeys :=
  .reference r

@[simp] theorem hasDistinctKeys_secret {inner : Value} :
    (secret inner).HasDistinctKeys ↔ inner.HasDistinctKeys :=
  ⟨fun | .secret part => part, .secret⟩

end Value

/-! ### Layers -/

/-- The fields of a plain map none of whose plain maps, at any depth, has a key twice. -/
structure Layer where
  fields : Fields
  distinct : (Value.map fields).HasDistinctKeys := by simp [Assoc.keys]

namespace Layer

instance : Coe Layer Fields := ⟨fields⟩

/-- The keys of a layer itself are distinct. -/
theorem nodup_keys (m : Layer) : (Assoc.keys m.fields).Nodup :=
  (Value.hasDistinctKeys_map.mp m.distinct).1

end Layer

end LayeredConfig
