import LayeredConfig.Json.Basic
import LayeredConfig.Proofs.Text.Numerals

/-!
# The parts of JSON data

Induction over JSON data (`Json.induct`), the parts that stand in it at any depth (`Json.IsPart`),
and the paths that lead to them: by the keys of objects, and by the indices of arrays in any
spelling (`Json.Leads`). `Json.IsMachine` says which data a program can hold: integers in the range
of 64 bits, signed or not, and objects with distinct keys. Every part of such data is such data
(`Json.IsMachine.child`). It stands beside the data for the reason for which
`Value.HasDistinctKeys` stands beside values: data has data in it.
-/

namespace LayeredConfig.Json

/-- Induction over JSON data, with the parts of a container as a list. -/
@[elab_as_elim]
theorem induct {P : Json → Prop} (null : P .null) (bool : ∀ b, P (.bool b))
    (integer : ∀ i, P (.integer i)) (float : ∀ x finite, P (.float x finite))
    (string : ∀ s, P (.string s)) (array : ∀ items, (∀ j ∈ items, P j) → P (.array items))
    (object : ∀ fields, (∀ f ∈ fields, P f.2) → P (.object fields)) : ∀ j, P j
  | .null => null
  | .bool b => bool b
  | .integer i => integer i
  | .float x finite => float x finite
  | .string s => string s
  | .array items => array items fun j inside =>
    have := List.sizeOf_lt_of_mem inside
    induct null bool integer float string array object j
  | .object fields => object fields fun (key, j) inside =>
    have := List.sizeOf_lt_of_mem inside
    induct null bool integer float string array object j
decreasing_by all_goals simp_all; omega

/-- Data that stand in other data, at any depth; all data stand in themselves. -/
inductive IsPart (k : Json) : Json → Prop where
  | whole : IsPart k k
  | item {items : List Json} {j : Json} (inside : j ∈ items) (part : IsPart k j) :
      IsPart k (.array items)
  | field {fields : List (String × Json)} {key : String} {j : Json}
      (inside : (key, j) ∈ fields) (part : IsPart k j) : IsPart k (.object fields)

/-- What one segment leads to: in an object the value of a key, in an array the item at an
index. -/
inductive Child : Json → String → Json → Prop where
  | field {fields : List (String × Json)} {key : String} {k : Json}
      (inside : (key, k) ∈ fields) : Child (.object fields) key k
  | item {items : List Json} {segment : String} {n : Nat} {k : Json}
      (index : Text.Spells segment n) (there : items[n]? = some k) : Child (.array items) segment k

/-- What a path leads to. -/
inductive Leads : Json → List String → Json → Prop where
  | here (j : Json) : Leads j [] j
  | onward {j k l : Json} {segment : String} {path : List String} (step : Child j segment k)
      (rest : Leads k path l) : Leads j (segment :: path) l

/-- Data as programs hold them: integers have 64 bits, with a sign or without, and an object has
no key twice. -/
inductive IsMachine : Json → Prop where
  | null : IsMachine .null
  | bool (b : Bool) : IsMachine (.bool b)
  | integer {i : Int} (low : Int64.minValue.toInt ≤ i) (high : i < UInt64.size) :
      IsMachine (.integer i)
  | float (x : Binary64) (finite : x.isFinite = true) : IsMachine (.float x finite)
  | string (s : String) : IsMachine (.string s)
  | array {items : List Json} (all : ∀ j ∈ items, IsMachine j) : IsMachine (.array items)
  | object {fields : List (String × Json)} (distinct : (Assoc.keys fields).Nodup)
      (all : ∀ f ∈ fields, IsMachine f.2) : IsMachine (.object fields)

variable {j k : Json} {items : List Json} {fields : List (String × Json)}

theorem isPart_array_iff :
    k.IsPart (.array items) ↔ k = .array items ∨ ∃ j ∈ items, k.IsPart j := by
  constructor
  · rintro (_ | ⟨inside, part⟩)
    · exact .inl rfl
    · exact .inr ⟨_, inside, part⟩
  · rintro (rfl | ⟨j, inside, part⟩)
    · exact .whole
    · exact .item inside part

theorem isPart_object_iff :
    k.IsPart (.object fields) ↔ k = .object fields ∨ ∃ f ∈ fields, k.IsPart f.2 := by
  constructor
  · rintro (_ | _ | ⟨inside, part⟩)
    · exact .inl rfl
    · exact .inr ⟨_, inside, part⟩
  · rintro (rfl | ⟨f, inside, part⟩)
    · exact .whole
    · exact .field inside part

theorem IsMachine.child {segment : String} (machine : j.IsMachine) (step : Child j segment k) :
    k.IsMachine := by
  cases step with
  | field inside =>
    cases machine with
    | object distinct all => exact all _ inside
  | item index there =>
    cases machine with
    | array all => exact all k (List.mem_of_getElem? there)

/-- What stands in data that a program holds is no less than the least integer. -/
theorem IsMachine.le_of_isPart {i : Int} (machine : j.IsMachine)
    (part : (Json.integer i).IsPart j) : Int64.minValue.toInt ≤ i := by
  induction part with
  | whole =>
    cases machine with
    | integer low high => exact low
  | item inside part ih =>
    cases machine with
    | array all => exact ih (all _ inside)
  | field inside part ih =>
    cases machine with
    | object distinct all => exact ih (all _ inside)

end LayeredConfig.Json
