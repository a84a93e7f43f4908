/-!
Keyed values in insertion order.

A map is a list of pairs whose keys are distinct. Every operation here keeps
keys distinct, and each one fixes the place of the key that it writes:
`Assoc.insert` leaves a known key where it is, `Assoc.insertLast` moves it to
the end. `Assoc.get?` is the view through which both are described.

The list is raw: values and data have maps in them which have values and data in
them, and a type cannot be nested in a structure that also holds a proof about
it. `Value.HasDistinctKeys` and `Json.IsMachine` state the invariant of all maps
in a value or in data, and a `Layer` is a map that carries it.
-/

namespace LayeredConfig

/-- Keyed values in insertion order. -/
abbrev Assoc (α : Type) := List (String × α)

namespace Assoc

variable {α β : Type}

/-- The keys, in order. -/
def keys (m : Assoc α) : List String := m.map (·.1)

/-- The value under a key. -/
def get? : Assoc α → String → Option α
  | [], _ => none
  | (k, v) :: rest, key => if k = key then some v else get? rest key

/-- Whether a key is present. -/
def contains (m : Assoc α) (key : String) : Bool := (get? m key).isSome

/-- Write a key: a known key keeps its place, a new one goes to the end. -/
def insert : Assoc α → String → α → Assoc α
  | [], key, v => [(key, v)]
  | (k, w) :: rest, key, v => if k = key then (k, v) :: rest else (k, w) :: insert rest key v

/-- Drop a key; the others keep their order. -/
def erase : Assoc α → String → Assoc α
  | [], _ => []
  | (k, v) :: rest, key => if k = key then erase rest key else (k, v) :: erase rest key

/-- Write a key at the end, wherever it was before. -/
def insertLast (m : Assoc α) (key : String) (v : α) : Assoc α := erase m key ++ [(key, v)]

/-- Pairs written one after the other: a repeated key keeps its first place and
its last value. -/
def ofList (pairs : List (String × α)) : Assoc α :=
  pairs.foldl (fun m p => insert m p.1 p.2) []

/-- Apply a function to every value. -/
def mapValues (f : α → β) (m : Assoc α) : Assoc β := m.map fun p => (p.1, f p.2)

/-- Write a key in front of the first greater one, so that sorted keys stay sorted. -/
def insertSorted : Assoc α → String → α → Assoc α
  | [], key, v => [(key, v)]
  | (k, w) :: rest, key, v =>
    if k = key then (k, v) :: rest
    else if key < k then (key, v) :: (k, w) :: rest
    else (k, w) :: insertSorted rest key v

/-- Pairs sorted by key, by code point; of a repeated key the last value counts. -/
def sorted (pairs : List (String × α)) : Assoc α :=
  pairs.foldl (fun m p => insertSorted m p.1 p.2) []

/-! ### What a lookup sees -/

@[simp] theorem get?_nil (key : String) : get? ([] : Assoc α) key = none := rfl

theorem get?_cons (k : String) (v : α) (m : Assoc α) (key : String) :
    get? ((k, v) :: m) key = if k = key then some v else get? m key := rfl

theorem get?_insert (m : Assoc α) (key : String) (v : α) (other : String) :
    get? (insert m key v) other = if key = other then some v else get? m other := by
  induction m with
  | nil => rfl
  | cons p m ih =>
    obtain ⟨k, w⟩ := p
    by_cases hk : k = key
    · subst hk
      by_cases ho : k = other <;> simp [insert, get?, ho]
    · by_cases ho : k = other
      · subst ho
        simp [insert, get?, hk, Ne.symm hk]
      · simp [insert, get?, hk, ho, ih]

theorem get?_erase (m : Assoc α) (key other : String) :
    get? (erase m key) other = if key = other then none else get? m other := by
  induction m with
  | nil => simp [erase]
  | cons p m ih =>
    obtain ⟨k, w⟩ := p
    by_cases hk : k = key
    · subst hk
      by_cases ho : k = other <;> simp_all [erase, get?]
    · by_cases ho : k = other
      · subst ho
        simp [erase, get?, hk, Ne.symm hk]
      · simp [erase, get?, hk, ho, ih]

theorem get?_append (m n : Assoc α) (key : String) :
    get? (m ++ n) key = (get? m key).or (get? n key) := by
  induction m with
  | nil => simp
  | cons p m ih =>
    obtain ⟨k, w⟩ := p
    by_cases hk : k = key <;> simp [get?, hk, ih]

theorem get?_insertLast (m : Assoc α) (key : String) (v : α) (other : String) :
    get? (insertLast m key v) other = if key = other then some v else get? m other := by
  rw [insertLast, get?_append, get?_erase]
  by_cases ho : key = other <;> simp [get?, ho]

theorem get?_isSome_iff (m : Assoc α) (key : String) :
    (get? m key).isSome ↔ key ∈ keys m := by
  induction m with
  | nil => simp [keys]
  | cons p m ih =>
    obtain ⟨k, w⟩ := p
    by_cases hk : k = key
    · simp [get?, keys, hk]
    · simp only [get?, hk, if_false, ih, keys, List.map_cons, List.mem_cons]
      exact ⟨.inr, fun h => h.elim (fun e => absurd e.symm hk) id⟩

theorem get?_eq_none_iff {m : Assoc α} {key : String} : get? m key = none ↔ key ∉ keys m := by
  rw [← get?_isSome_iff, Option.not_isSome_iff_eq_none]

theorem mem_of_get? {m : Assoc α} {key : String} {v : α} (found : get? m key = some v) :
    (key, v) ∈ m := by
  induction m with
  | nil => cases found
  | cons p m ih =>
    obtain ⟨k, w⟩ := p
    by_cases hk : k = key
    · simp only [get?, hk, if_true, Option.some.injEq] at found
      simp [hk, found]
    · simp only [get?, hk, if_false] at found
      exact List.mem_cons_of_mem _ (ih found)

/-! ### Mapped values -/

theorem get?_mapValues (f : α → β) (m : Assoc α) (key : String) :
    get? (mapValues f m) key = (get? m key).map f := by
  induction m with
  | nil => rfl
  | cons p m ih =>
    obtain ⟨k, v⟩ := p
    have whole : mapValues f ((k, v) :: m) = (k, f v) :: mapValues f m := rfl
    rw [whole, get?_cons, get?_cons, ih]
    split <;> rfl

theorem insert_mapValues (f : α → β) (m : Assoc α) (key : String) (v : α) :
    insert (mapValues f m) key (f v) = mapValues f (insert m key v) := by
  induction m with
  | nil => rfl
  | cons p m ih =>
    obtain ⟨k, w⟩ := p
    have whole : mapValues f ((k, w) :: m) = (k, f w) :: mapValues f m := rfl
    rw [whole, insert, insert, ih]
    split <;> rfl

theorem erase_mapValues (f : α → β) (m : Assoc α) (key : String) :
    erase (mapValues f m) key = mapValues f (erase m key) := by
  induction m with
  | nil => rfl
  | cons p m ih =>
    obtain ⟨k, v⟩ := p
    have whole : mapValues f ((k, v) :: m) = (k, f v) :: mapValues f m := rfl
    rw [whole, erase, erase, ih]
    split <;> rfl

theorem insertLast_mapValues (f : α → β) (m : Assoc α) (key : String) (v : α) :
    insertLast (mapValues f m) key (f v) = mapValues f (insertLast m key v) := by
  have append : mapValues f (erase m key ++ [(key, v)])
      = mapValues f (erase m key) ++ [(key, f v)] := List.map_append
  rw [insertLast, erase_mapValues, insertLast, append]

/-! ### Which keys there are -/

theorem keys_append (m n : Assoc α) : keys (m ++ n) = keys m ++ keys n := List.map_append

theorem keys_mapValues (f : α → β) (m : Assoc α) : keys (mapValues f m) = keys m := by
  simp [keys, mapValues]

theorem keys_insert (m : Assoc α) (key : String) (v : α) :
    keys (insert m key v) = if key ∈ keys m then keys m else keys m ++ [key] := by
  induction m with
  | nil => rfl
  | cons p m ih =>
    obtain ⟨k, w⟩ := p
    by_cases hk : k = key
    · simp [insert, keys, hk]
    · have ih' : List.map (·.1) (insert m key v) =
          if key ∈ List.map (·.1) m then List.map (·.1) m else List.map (·.1) m ++ [key] := ih
      simp only [insert, hk, if_false, keys, List.map_cons, List.mem_cons, ih', Ne.symm hk,
        false_or]
      split <;> rfl

/-- A new key comes last. -/
theorem insert_of_new {m : Assoc α} {key : String} (new : key ∉ keys m) (v : α) :
    insert m key v = m ++ [(key, v)] := by
  induction m with
  | nil => rfl
  | cons p m ih =>
    obtain ⟨k, w⟩ := p
    simp only [keys, List.map_cons, List.mem_cons, not_or] at new
    rw [insert, if_neg (Ne.symm new.1), ih new.2, List.cons_append]

theorem erase_eq_filter (m : Assoc α) (key : String) : erase m key = m.filter (·.1 ≠ key) := by
  induction m with
  | nil => rfl
  | cons p m ih =>
    obtain ⟨k, v⟩ := p
    by_cases same : k = key <;> simp [erase, same, ih]

theorem keys_erase (m : Assoc α) (key : String) :
    keys (erase m key) = (keys m).filter (· ≠ key) := by
  induction m with
  | nil => rfl
  | cons p m ih =>
    obtain ⟨k, w⟩ := p
    unfold keys at ih ⊢
    by_cases hk : k = key <;> simp_all [erase]

theorem keys_insertLast (m : Assoc α) (key : String) (v : α) :
    keys (insertLast m key v) = (keys m).filter (· ≠ key) ++ [key] := by
  have happ : keys (erase m key ++ [(key, v)]) = keys (erase m key) ++ [key] := by
    simp [keys]
  rw [insertLast, happ, keys_erase]

/-- A map is told by its keys and what a lookup sees. -/
theorem eq_of_get?_eq {m n : Assoc α} (distinct : (keys m).Nodup) (same : keys m = keys n)
    (lookup : ∀ key, get? m key = get? n key) : m = n := by
  induction m generalizing n with
  | nil => exact (List.map_eq_nil_iff.mp same.symm).symm
  | cons p m ih =>
    obtain _ | ⟨q, n⟩ := n
    · cases same
    obtain ⟨k, v⟩ := p
    obtain ⟨l, w⟩ := q
    obtain ⟨rfl, others⟩ : k = l ∧ keys m = keys n := List.cons.inj same
    obtain ⟨new, distinct⟩ := List.nodup_cons.mp distinct
    have first := lookup k
    simp only [get?_cons, if_true, Option.some.injEq] at first
    rw [first, ih distinct others]
    intro key
    by_cases here : k = key
    · subst here
      have new' : k ∉ keys n := by
        rw [← others]
        exact new
      rw [get?_eq_none_iff.mpr new, get?_eq_none_iff.mpr new']
    · simpa [get?_cons, here] using lookup key

end Assoc

end LayeredConfig
