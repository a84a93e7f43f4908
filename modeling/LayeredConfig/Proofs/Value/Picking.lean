import LayeredConfig.Proofs.Value.Masking
import LayeredConfig.Proofs.Value.Revealing

/-!
# What a wildcard brings to light

A wildcard looks a path up in every entry of a value, and a path goes through secrets. What it
finds behind a secret comes out bare, unless the whole value was a secret. So an entry is
exposed if the path leaves a secret in it behind and finds something with a scalar that no
other secret hides (`Value.Exposes`).

`Value.repaint` changes the scalars beneath secrets, at will, and nothing else. By means of it
`pick_redact_iff` says that nobody can tell hidden scalars from what a wildcard finds and
redaction leaves of it, exactly if no entry is exposed.
-/

namespace LayeredConfig

namespace Scalar

/-- Some other scalar. -/
def other : Scalar → Scalar
  | .null => .bool true
  | _ => .null

theorem other_ne (s : Scalar) : s.other ≠ s := by
  cases s <;> simp [other]

end Scalar

namespace Value

/-! ### Changing what secrets hide -/

mutual
/-- Change every scalar beneath a secret; `hidden` says whether the value itself is beneath
one. -/
def repaint (f : Scalar → Scalar) (hidden : Bool) : Value → Value
  | .scalar s => .scalar (if hidden then f s else s)
  | .list items => .list (repaintItems f hidden items)
  | .map fields => .map (repaintFields f hidden fields)
  | .ordered entries => .ordered (repaintEntries f hidden entries)
  | .reference r => .reference r
  | .secret inner => .secret (repaint f true inner)

def repaintItems (f : Scalar → Scalar) (hidden : Bool) : List Value → List Value
  | [] => []
  | v :: rest => repaint f hidden v :: repaintItems f hidden rest

def repaintFields (f : Scalar → Scalar) (hidden : Bool) :
    List (String × Value) → List (String × Value)
  | [] => []
  | (key, v) :: rest => (key, repaint f hidden v) :: repaintFields f hidden rest

def repaintEntries (f : Scalar → Scalar) (hidden : Bool) : List (Entry Value) → List (Entry Value)
  | [] => []
  | ⟨key, v, origin⟩ :: rest => ⟨key, repaint f hidden v, origin⟩ :: repaintEntries f hidden rest
end

section Repainting

variable (f : Scalar → Scalar) (hidden : Bool)

theorem repaint_list (items : List Value) :
    (list items).repaint f hidden = .list (items.map (repaint f hidden)) := by
  rw [repaint]
  congr 1
  induction items with
  | nil => rfl
  | cons v rest ih => rw [repaintItems, ih, List.map_cons]

theorem repaint_map (fields : Fields) :
    (map fields).repaint f hidden = .map (Assoc.mapValues (repaint f hidden) fields) := by
  rw [repaint]
  congr 1
  induction fields with
  | nil => rfl
  | cons p rest ih =>
    rw [repaintFields, ih]
    rfl

theorem repaint_ordered (entries : List (Entry Value)) :
    (ordered entries).repaint f hidden = .ordered (entries.map (Entry.map (repaint f hidden))) := by
  rw [repaint]
  congr 1
  induction entries with
  | nil => rfl
  | cons e rest ih =>
    rw [repaintEntries, ih]
    rfl

/-- A mask paints all alike. -/
theorem mask_eq_repaint (v : Value) : v.mask hidden = v.repaint (fun _ => .null) hidden := by
  induction v using induct generalizing hidden with
  | scalar s => rfl
  | reference r => rfl
  | secret inner ih => rw [mask, repaint, ih]
  | list items ih =>
    rw [mask_list, repaint_list]
    exact congrArg list (List.map_congr_left fun v hv => ih v hv hidden)
  | map fields ih =>
    rw [mask_map, repaint_map]
    exact congrArg map (List.map_congr_left fun p hp => by rw [ih p hp hidden])
  | ordered entries ih =>
    rw [mask_ordered, repaint_ordered]
    exact congrArg ordered (List.map_congr_left fun e he => by rw [Entry.map, Entry.map, ih e he])

/-- A mask does not let through what has been painted. -/
theorem mask_repaint (v : Value) : (v.repaint f hidden).mask hidden = v.mask hidden := by
  induction v using induct generalizing hidden with
  | scalar s => cases hidden <;> rfl
  | reference r => rfl
  | secret inner ih => rw [repaint, mask, mask, ih]
  | list items ih =>
    rw [repaint_list, mask_list, mask_list, List.map_map]
    exact congrArg list (List.map_congr_left fun v hv => ih v hv hidden)
  | map fields ih =>
    rw [repaint_map, mask_map, mask_map, Assoc.mapValues, Assoc.mapValues, Assoc.mapValues,
      List.map_map]
    exact congrArg map (List.map_congr_left fun p hp => by simp [ih p hp hidden])
  | ordered entries ih =>
    rw [repaint_ordered, mask_ordered, mask_ordered, List.map_map]
    exact congrArg ordered (List.map_congr_left fun e he => by simp [Entry.map, ih e he hidden])

theorem redact_repaint (v : Value) : (v.repaint f false).redact = v.redact :=
  eq_of_mask_eq redact_mask (mask_repaint f false v)

end Repainting

/-! ### What redaction shows -/

/-- A value with a scalar that no secret hides. -/
inductive Shows : Value → Prop where
  | scalar (s : Scalar) : Shows (.scalar s)
  | list {items : List Value} {v : Value} (inside : v ∈ items) (part : Shows v) :
      Shows (.list items)
  | map {fields : Fields} {p : String × Value} (inside : p ∈ fields) (part : Shows p.2) :
      Shows (.map fields)
  | ordered {entries : List (Entry Value)} {e : Entry Value} (inside : e ∈ entries)
      (part : Shows e.value) : Shows (.ordered entries)

@[simp] theorem shows_scalar (s : Scalar) : (scalar s).Shows := .scalar s

@[simp] theorem shows_list {items : List Value} : (list items).Shows ↔ ∃ v ∈ items, v.Shows :=
  ⟨fun | .list inside part => ⟨_, inside, part⟩, fun ⟨_, inside, part⟩ => .list inside part⟩

@[simp] theorem shows_map {fields : Fields} : (map fields).Shows ↔ ∃ p ∈ fields, p.2.Shows :=
  ⟨fun | .map inside part => ⟨_, inside, part⟩, fun ⟨_, inside, part⟩ => .map inside part⟩

@[simp] theorem shows_ordered {entries : List (Entry Value)} :
    (ordered entries).Shows ↔ ∃ e ∈ entries, e.value.Shows :=
  ⟨fun | .ordered inside part => ⟨_, inside, part⟩, fun ⟨_, inside, part⟩ => .ordered inside part⟩

@[simp] theorem not_shows_reference (r : Reference) : ¬ (reference r).Shows := nofun

@[simp] theorem not_shows_secret (inner : Value) : ¬ (secret inner).Shows := nofun

/-- Nothing of a value is seen after redaction if there is no scalar that no secret hides. -/
theorem redact_repaint_of_not_shows (f : Scalar → Scalar) {v : Value} (covered : ¬ v.Shows) :
    (v.repaint f true).redact = v.redact := by
  induction v using induct with
  | scalar s => exact absurd (shows_scalar s) covered
  | reference r => rfl
  | secret inner => simp [repaint, redact]
  | list items ih =>
    rw [repaint_list, redact_list, redact_list, List.map_map]
    refine congrArg list (List.map_congr_left fun v hv => ?_)
    exact ih v hv fun part => covered (.list hv part)
  | map fields ih =>
    rw [repaint_map, redact_map, redact_map, Assoc.mapValues, Assoc.mapValues, Assoc.mapValues,
      List.map_map]
    refine congrArg map (List.map_congr_left fun p hp => ?_)
    simp [ih p hp fun part => covered (.map hp part)]
  | ordered entries ih =>
    rw [repaint_ordered, redact_ordered, redact_ordered, List.map_map]
    refine congrArg ordered (List.map_congr_left fun e he => ?_)
    simp [Entry.map, ih e he fun part => covered (.ordered he part)]

/-- A change of all scalars in a value is seen after redaction if there is one that no secret
hides. -/
theorem redact_repaint_ne {f : Scalar → Scalar} (changes : ∀ s, f s ≠ s) {v : Value}
    (uncovered : v.Shows) : (v.repaint f true).redact ≠ v.redact := by
  induction uncovered with
  | scalar s => simp [repaint, redact, changes]
  | list inside part ih =>
    rw [repaint_list, redact_list, redact_list, List.map_map, ne_eq, Value.list.injEq,
      List.map_inj_left]
    exact fun same => ih (same _ inside)
  | map inside part ih =>
    rw [repaint_map, redact_map, redact_map, ne_eq, Value.map.injEq, Assoc.mapValues,
      Assoc.mapValues, Assoc.mapValues, List.map_map, List.map_inj_left]
    exact fun same => ih (Prod.mk.inj (same _ inside)).2
  | ordered inside part ih =>
    rw [repaint_ordered, redact_ordered, redact_ordered, List.map_map, ne_eq,
      Value.ordered.injEq, List.map_inj_left]
    exact fun same => ih (Entry.mk.inj (same _ inside)).2.1

theorem shows_repaint (f : Scalar → Scalar) (hidden : Bool) (v : Value) :
    (v.repaint f hidden).Shows ↔ v.Shows := by
  induction v using induct generalizing hidden with
  | scalar s => simp [repaint]
  | reference r => rfl
  | secret inner => simp [repaint]
  | list items ih =>
    simp only [repaint_list, shows_list, List.mem_map, exists_exists_and_eq_and]
    exact exists_congr fun v => and_congr_right fun hv => ih v hv hidden
  | map fields ih =>
    simp only [repaint_map, shows_map, Assoc.mapValues, List.mem_map, exists_exists_and_eq_and]
    exact exists_congr fun p => and_congr_right fun hp => ih p hp hidden
  | ordered entries ih =>
    simp only [repaint_ordered, shows_ordered, List.mem_map, exists_exists_and_eq_and]
    exact exists_congr fun e => and_congr_right fun he => ih e he hidden

/-! ### Paths through secrets -/

/-- Whether a path leaves a secret behind on its way. -/
def unveils : Value → List String → Bool
  | _, [] => false
  | v, segment :: rest => v.isSecret || (v.child? segment).any (·.unveils rest)

section Paths

variable (f : Scalar → Scalar) (hidden : Bool) (v : Value)

theorem isSecret_repaint : (v.repaint f hidden).isSecret = v.isSecret := by
  cases v <;> rfl

theorem child?_repaint (segment : String) :
    (v.repaint f hidden).child? segment
      = (v.child? segment).map (repaint f (hidden || v.isSecret)) := by
  induction v using induct generalizing hidden with
  | scalar s => rfl
  | reference r => rfl
  | ordered entries => rw [repaint_ordered]; rfl
  | list items =>
    have bare : (list items).isSecret = false := rfl
    rw [repaint_list, child?, child?, bare, Bool.or_false]
    cases index? segment with
    | none => rfl
    | some i => simp
  | map fields =>
    have bare : (map fields).isSecret = false := rfl
    rw [repaint_map, child?, child?, Assoc.get?_mapValues, bare, Bool.or_false]
  | secret inner ih => rw [repaint, child?, child?, ih, isSecret, Bool.or_true, Bool.true_or]

/-- What a path finds in a repainted value is repainted, as beneath a secret if it has left one
behind. -/
theorem follow?_repaint (path : List String) :
    (v.repaint f hidden).follow? path
      = (v.follow? path).map (repaint f (hidden || v.unveils path)) := by
  induction path generalizing v hidden with
  | nil => simp [follow?, unveils]
  | cons segment rest ih =>
    rw [follow?, follow?, child?_repaint, unveils]
    cases v.child? segment with
    | none => rfl
    | some u => simpa [Bool.or_assoc] using ih (hidden || v.isSecret) u

theorem unveils_repaint (path : List String) :
    (v.repaint f hidden).unveils path = v.unveils path := by
  induction path generalizing v hidden with
  | nil => rfl
  | cons segment rest ih =>
    rw [unveils, unveils, isSecret_repaint, child?_repaint]
    cases v.child? segment with
    | none => rfl
    | some u => simp [ih]

end Paths

/-! ### Wildcards -/

/-- The values that a wildcard stands for; what a secret holds stays secret. -/
def openEntries : Value → List Value
  | .list items => items
  | .map fields => fields.map (·.2)
  | _ => []

/-- A path finds something in an entry that was hidden there and is not any more. -/
def Exposes (path : List String) (v : Value) : Prop :=
  ∃ e ∈ v.openEntries, e.unveils path = true ∧ ∃ u, e.follow? path = some u ∧ u.Shows

/-- What is left of what a wildcard finds, if it finds anything, after redaction. -/
def pickRedacted (path : List String) (v : Value) : Option Value :=
  (v.pick path).toOption.map redact

/-- What is made of all that is found is the same exactly if it is the same for each. -/
theorem filterMap_map_eq_iff {α β γ : Type} {find : α → Option β} {make make' : α → β → γ}
    {l : List α} :
    (l.filterMap fun a => (find a).map (make a)) = (l.filterMap fun a => (find a).map (make' a)) ↔
      ∀ a ∈ l, ∀ b, find a = some b → make a b = make' a b := by
  induction l with
  | nil => simp
  | cons a l ih => cases found : find a <;> simp [found, ih]

section Wildcards

variable (f : Scalar → Scalar) (path : List String) (v : Value)

/-- A secret keeps what is found in it secret. -/
theorem toOption_pickEach_secret (inner : Value) :
    ((secret inner).pickEach path).toOption = (inner.pickEach path).toOption.map secret := by
  rw [pickEach]
  cases inner.pickEach path <;> rfl

/-- Hidden scalars do not decide whether a wildcard finds anything. -/
theorem isSome_pickEach_repaint (hidden : Bool) :
    ((v.repaint f hidden).pickEach path).toOption.isSome = (v.pickEach path).toOption.isSome := by
  induction v using induct generalizing hidden with
  | list items => rw [repaint_list]; rfl
  | map fields => rw [repaint_map]; rfl
  | ordered entries => rw [repaint_ordered]; rfl
  | secret inner ih =>
    rw [repaint, toOption_pickEach_secret, toOption_pickEach_secret, Option.isSome_map,
      Option.isSome_map, ih]
  | _ => rfl

/-- A change of hidden scalars is not seen in what a wildcard finds if it is not seen in what
the path finds in any entry. -/
theorem pickRedacted_repaint_iff :
    (v.repaint f false).pickRedacted path = v.pickRedacted path ↔
      ∀ e ∈ v.openEntries, ∀ u, e.follow? path = some u →
        (u.repaint f (e.unveils path)).redact = u.redact := by
  by_cases whole : path = []
  · subst whole
    simp [pickRedacted, pick, Except.toOption, unveils, redact_repaint]
  have each : ∀ v : Value, v.pick path = v.pickEach path := fun v => if_neg (by simpa using whole)
  rw [pickRedacted, pickRedacted, each, each]
  cases v with
  | list items =>
    simp only [repaint_list, pickEach, Except.toOption, Option.map_some, redact_list,
      List.filterMap_map, List.map_filterMap, Function.comp_def, follow?_repaint, Bool.false_or,
      Option.map_map, Option.some.injEq, Value.list.injEq, openEntries]
    exact filterMap_map_eq_iff
  | map fields =>
    simp only [repaint_map, pickEach, Except.toOption, Option.map_some, redact_map,
      Assoc.mapValues, List.filterMap_map, List.map_filterMap, Function.comp_def, follow?_repaint,
      Bool.false_or, Option.map_map, Option.some.injEq, Value.map.injEq, openEntries,
      filterMap_map_eq_iff, List.forall_mem_map, Prod.mk.injEq, true_and]
  | secret inner =>
    -- Whatever is found is secret, so all that is seen is whether anything is.
    have same := isSome_pickEach_repaint f path inner true
    simp only [openEntries, List.not_mem_nil, false_imp_iff, implies_true, iff_true]
    rw [repaint, toOption_pickEach_secret, toOption_pickEach_secret]
    cases h : ((inner.repaint f true).pickEach path).toOption <;>
      cases h' : (inner.pickEach path).toOption <;> simp_all [redact]
  | ordered entries => rw [repaint_ordered]; simp [pickEach, openEntries, Except.toOption]
  | scalar s => simp [repaint, pickEach, openEntries, Except.toOption]
  | reference r => simp [repaint, pickEach, openEntries, Except.toOption]

/-- Hidden scalars do not decide which entries are exposed. -/
theorem exposes_repaint : (v.repaint f false).Exposes path ↔ v.Exposes path := by
  have entries : (v.repaint f false).openEntries = v.openEntries.map (repaint f false) := by
    cases v with
    | list items => rw [repaint_list]; rfl
    | map fields => rw [repaint_map]; simp [openEntries, Assoc.mapValues]
    | ordered entries => rw [repaint_ordered]; rfl
    | _ => rfl
  simp only [Exposes, entries, List.mem_map, exists_exists_and_eq_and, unveils_repaint,
    follow?_repaint, Option.map_eq_some_iff, shows_repaint]

end Wildcards

/-- What redaction leaves of what a wildcard finds is the same for all values that differ in
hidden scalars alone, exactly if the wildcard exposes nothing: if no entry, of a value that is
not secret as a whole, has a scalar behind a secret that the path goes through. -/
theorem pick_redact_iff (path : List String) (v : Value) :
    (∀ v' : Value, v'.mask false = v.mask false → v'.pickRedacted path = v.pickRedacted path) ↔
      ¬ v.Exposes path := by
  constructor
  · rintro blind ⟨e, inside, unveiled, u, found, uncovered⟩
    have same := blind (v.repaint Scalar.other false) (mask_repaint _ false v)
    have hidden := (pickRedacted_repaint_iff _ path v).mp same e inside u found
    rw [unveiled] at hidden
    exact redact_repaint_ne Scalar.other_ne uncovered hidden
  · intro covered v' alike
    have masked : ∀ w : Value, ¬ w.Exposes path →
        (w.mask false).pickRedacted path = w.pickRedacted path := by
      intro w covered
      rw [mask_eq_repaint, pickRedacted_repaint_iff]
      intro e inside u found
      cases unveiled : e.unveils path with
      | false => exact redact_repaint _ u
      | true =>
        exact redact_repaint_of_not_shows _ fun uncovered =>
          covered ⟨e, inside, unveiled, u, found, uncovered⟩
    have covered' : ¬ v'.Exposes path := by
      rwa [← exposes_repaint (fun _ => .null), ← mask_eq_repaint, alike, mask_eq_repaint,
        exposes_repaint]
    rw [← masked v' covered', alike, masked v covered]

/-- A wildcard over a map whose entry is secret: the password comes out bare. -/
example :
    (map [("db", .secret (.map [("password", .string "x")]))]).pick ["password"]
      = .ok (.map [("db", .string "x")]) :=
  rfl

end Value

end LayeredConfig
