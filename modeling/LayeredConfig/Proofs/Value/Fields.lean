import Mathlib.Data.List.Induction
import LayeredConfig.Proofs.Value.KeyOrder

/-!
# Keyed entries as fields

Pairs that are written one after the other make a map: it has every key once, at its first
place (`Assoc.keys_ofList`), and under it the last value (`Assoc.get?_ofList`). Keyed entries make
the plain map of their pairs (`Value.ofEntries_of_keyed`).
-/

namespace LayeredConfig

namespace Assoc

variable {α : Type}

theorem ofList_concat (pairs : List (String × α)) (key : String) (v : α) :
    ofList (pairs ++ [(key, v)]) = insert (ofList pairs) key v := by
  rw [ofList, List.foldl_append]
  rfl

/-- Every key stands once, at its first place. -/
theorem keys_ofList (pairs : List (String × α)) : keys (ofList pairs) = (keys pairs).eraseDups := by
  induction pairs using List.reverseRecOn with
  | nil => rfl
  | append_singleton pairs p ih =>
    have again : (keys [p]).removeAll (keys pairs)
        = if p.1 ∈ keys pairs then [] else [p.1] := by
      by_cases known : p.1 ∈ keys pairs
      · rw [if_pos known]
        simpa [keys, List.removeAll] using known
      · rw [if_neg known]
        simpa [keys, List.removeAll] using known
    rw [ofList_concat, keys_insert, ih, keys_append, List.eraseDups_append, again]
    simp only [List.mem_eraseDups]
    split
    · rw [List.eraseDups_nil, List.append_nil]
    · rw [List.eraseDups_cons, List.filter_nil, List.eraseDups_nil]

theorem nodup_keys_ofList (pairs : List (String × α)) : (keys (ofList pairs)).Nodup := by
  induction pairs using List.reverseRecOn with
  | nil => exact List.nodup_nil
  | append_singleton pairs p ih =>
    rw [ofList_concat]
    exact nodup_keys_insert ih p.1 p.2

/-- Of a repeated key the last value counts. -/
theorem get?_ofList (pairs : List (String × α)) (key : String) :
    get? (ofList pairs) key = get? pairs.reverse key := by
  induction pairs using List.reverseRecOn with
  | nil => rfl
  | append_singleton pairs p ih =>
    rw [ofList_concat, get?_insert, ih, List.reverse_concat, get?_cons]

/-- What is shadowed brings in nothing. -/
theorem mem_of_mem_ofList {pairs : List (String × α)} {f : String × α}
    (inside : f ∈ ofList pairs) : f ∈ pairs := by
  have found := (mem_iff_get? (nodup_keys_ofList pairs)).mp inside
  rw [get?_ofList] at found
  exact List.mem_reverse.mp (mem_of_get? found)

end Assoc

namespace Value

/-- Keys and values of the keyed entries, in declaration order. -/
def pairs (entries : List (Entry Value)) : List (String × Value) :=
  entries.filterMap fun e => e.key.map (·, e.value)

theorem pairs_cons (e : Entry Value) (entries : List (Entry Value)) :
    pairs (e :: entries) = (e.key.map (·, e.value)).toList ++ pairs entries := by
  cases keyed : e.key <;> simp [pairs, keyed]

theorem keys_pairs (entries : List (Entry Value)) :
    Assoc.keys (pairs entries) = entries.filterMap Entry.key := by
  induction entries with
  | nil => rfl
  | cons e entries ih =>
    rw [pairs_cons, Assoc.keys_append, ih]
    cases keyed : e.key <;> simp [keyed, Assoc.keys]

theorem ofEntries_of_keyed {entries : List (Entry Value)}
    (keyed : ∀ e ∈ entries, e.isSpread = false) :
    ofEntries entries = .map (Assoc.ofList (pairs entries)) := by
  rw [ofEntries, if_neg]
  · rfl
  · simpa using keyed

end Value

end LayeredConfig
