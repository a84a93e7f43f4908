import Mathlib.Data.List.Forall2
import LayeredConfig.Proofs.Document.Grammar

/-!
# What a conversion has done when it succeeds

One equivalence for each part of the conversion: containers are converted part by part and in
order (`convertItems_eq_ok_iff`, `convertEntries_eq_ok_iff`), an entry is admissible and keeps its
key and its origin (`convertEntry_eq_ok_iff`), and a value at some depth is converted only if the
depth is admissible (`Expr.convert_map_eq_ok_iff` and those beside it, one for each kind of
expression). No other module opens the conversion of an expression.
-/

namespace LayeredConfig

section Results

variable {α β : Type}

theorem Converting.pure_eq_ok_iff {a b : α} : (pure a : Converting α) = .ok b ↔ a = b :=
  ⟨fun | rfl => rfl, fun | rfl => rfl⟩

/-- What goes on from a success succeeds just if both succeed. -/
theorem Converting.bind_eq_ok_iff {r : Converting α} {f : α → Converting β} {b : β} :
    (r >>= f) = .ok b ↔ ∃ a, r = .ok a ∧ f a = .ok b := by
  cases r with
  | ok a =>
    constructor
    · intro rest
      exact ⟨a, rfl, rest⟩
    · rintro ⟨_, same, rest⟩
      cases same
      exact rest
  | error e =>
    constructor
    · intro failed
      cases failed
    · rintro ⟨_, failed, -⟩
      cases failed

/-- Where something is converted makes a difference to errors alone. -/
theorem under_eq_ok_iff {step : ConversionStep} {r : Converting α} {a : α} :
    under step r = .ok a ↔ r = .ok a := by
  cases r with
  | ok a' => exact Iff.rfl
  | error e => exact ⟨nofun, nofun⟩

/-- What is done at an admissible depth is done there. -/
theorem checkDepth_bind_eq_ok_iff {depth : Nat} {origin : Origin} {r : Converting α} {a : α} :
    (checkDepth depth origin >>= fun _ => r) = .ok a ↔ depth ≤ maxDepth ∧ r = .ok a := by
  rw [checkDepth]
  split
  · rename_i deep
    constructor
    · intro failed
      cases failed
    · rintro ⟨shallow, -⟩
      omega
  · rename_i shallow
    exact (and_iff_right (Nat.le_of_not_lt shallow)).symm

end Results

section Parts

variable {inConfig : Bool} {depth : Nat} {origin : Origin}

/-- The items of a list are converted one by one. -/
theorem convertItems_eq_ok_iff {items : List Expr} {values : List Value} (index : Nat) :
    convertItems inConfig depth index items = .ok values ↔
      List.Forall₂ (fun e v => e.convert inConfig depth = .ok v) items values := by
  induction items generalizing index values with
  | nil =>
    rw [convertItems, List.forall₂_nil_left_iff]
    exact ⟨fun | rfl => rfl, fun | rfl => rfl⟩
  | cons e items ih =>
    simp only [convertItems, Converting.bind_eq_ok_iff, Converting.pure_eq_ok_iff, under_eq_ok_iff,
      ih, List.forall₂_cons_left_iff]
    constructor
    · rintro ⟨v, first, rest, others, rfl⟩
      exact ⟨v, rest, first, others, rfl⟩
    · rintro ⟨v, rest, first, others, rfl⟩
      exact ⟨v, first, rest, others, rfl⟩

/-- So are the entries of a map. -/
theorem convertEntries_eq_ok_iff {raw : List (RawEntry Expr)} {entries : List (Entry Value)} :
    convertEntries inConfig depth raw = .ok entries ↔
      List.Forall₂ (fun e entry => convertEntry inConfig depth e = .ok entry) raw entries := by
  induction raw generalizing entries with
  | nil =>
    rw [convertEntries, List.forall₂_nil_left_iff]
    exact ⟨fun | rfl => rfl, fun | rfl => rfl⟩
  | cons e raw ih =>
    simp only [convertEntries, Converting.bind_eq_ok_iff, Converting.pure_eq_ok_iff, ih,
      List.forall₂_cons_left_iff]
    constructor
    · rintro ⟨entry, first, rest, others, rfl⟩
      exact ⟨entry, rest, first, others, rfl⟩
    · rintro ⟨entry, rest, first, others, rfl⟩
      exact ⟨entry, first, rest, others, rfl⟩

/-- An entry without a value is not converted. -/
theorem convertValue_eq_ok_iff {value : Option Expr} {v : Value} :
    convertValue inConfig depth origin value = .ok v ↔
      ∃ x, value = some x ∧ x.convert inConfig depth = .ok v := by
  cases value with
  | none =>
    constructor
    · intro failed
      cases failed
    · rintro ⟨_, none, -⟩
      cases none
  | some x =>
    constructor
    · intro converted
      exact ⟨x, rfl, converted⟩
    · rintro ⟨_, same, converted⟩
      cases same
      exact converted

/-- An entry is converted if it is admissible and its value is converted. It keeps its key; a
spread has none. -/
theorem convertEntry_eq_ok_iff {e : RawEntry Expr} {entry : Entry Value} :
    convertEntry inConfig depth e = .ok entry ↔
      (Subject.entry inConfig e).Admissible ∧
        ∃ x v, e.value = some x ∧ x.convert inConfig depth = .ok v ∧
          entry = { key := e.key, value := v, origin := e.origin } := by
  rw [convertEntry_eq]
  cases fault : (Subject.entry inConfig e).fault? with
  | some cause =>
    constructor
    · intro refused
      cases refused
    · rintro ⟨fine, -⟩
      cases fault.symm.trans fine.fault?
  | none =>
    have fine := (Subject.fault?_eq_none_iff _).mp fault
    have inner {r : Converting Value} {v : Value} :
        e.step?.elim r (LayeredConfig.under · r) = .ok v ↔ r = .ok v := by
      cases e.step? with
      | none => exact Iff.rfl
      | some step => exact under_eq_ok_iff
    simp only [Converting.bind_eq_ok_iff, Converting.pure_eq_ok_iff, inner,
      convertValue_eq_ok_iff]
    constructor
    · rintro ⟨v, ⟨x, filled, converted⟩, rfl⟩
      exact ⟨fine, x, v, filled, converted, rfl⟩
    · rintro ⟨-, x, v, filled, converted, rfl⟩
      exact ⟨v, ⟨x, filled, converted⟩, rfl⟩

end Parts

/-! ### Expressions -/

namespace Expr

variable {inConfig : Bool} {depth : Nat} {origin : Origin} {v : Value}

theorem convert_atom_eq_ok_iff {a : Atom} :
    (atom origin a).convert inConfig depth = .ok v ↔ depth ≤ maxDepth ∧ a.value origin = v := by
  rw [convert, checkDepth_bind_eq_ok_iff, Converting.pure_eq_ok_iff]

theorem convert_map_eq_ok_iff {entries : List (RawEntry Expr)} :
    (map origin entries).convert inConfig depth = .ok v ↔
      depth ≤ maxDepth ∧
        ∃ converted, convertEntries inConfig (depth + 1) entries = .ok converted ∧
          Value.ofEntries converted = v := by
  rw [convert, checkDepth_bind_eq_ok_iff]
  simp only [Converting.bind_eq_ok_iff, Converting.pure_eq_ok_iff]

theorem convert_list_eq_ok_iff {items : List Expr} :
    (list origin items).convert inConfig depth = .ok v ↔
      depth ≤ maxDepth ∧
        ∃ values, convertItems inConfig (depth + 1) 0 items = .ok values ∧ .list values = v := by
  rw [convert, checkDepth_bind_eq_ok_iff]
  simp only [Converting.bind_eq_ok_iff, Converting.pure_eq_ok_iff]

theorem convert_secret_eq_ok_iff {inner : Expr} :
    (secret origin inner).convert inConfig depth = .ok v ↔
      depth ≤ maxDepth ∧
        ∃ u, inner.convert inConfig (depth + 1) = .ok u ∧ .secret u = v := by
  rw [convert, checkDepth_bind_eq_ok_iff]
  simp only [Converting.bind_eq_ok_iff, Converting.pure_eq_ok_iff]

/-- A call is never converted. -/
theorem convert_call_ne_ok (name : String) (args : List Expr) :
    (call origin name args).convert inConfig depth ≠ .ok v := by
  intro converted
  rw [convert, checkDepth_bind_eq_ok_iff] at converted
  cases converted.2

end Expr

end LayeredConfig
