import LayeredConfig.Compilation.Variables
import LayeredConfig.Proofs.Json.Data
import LayeredConfig.Proofs.Value.KeyOrder

/-!
# JSON data as values

Data become a value of scalars, lists and plain maps (`Value.isData_ofJson`), item by item and
field by field. Written out again they are what they were, unless an integer was too great for 64
bits with a sign: that one has become a double, and a double is written as a double
(`Value.toJson_ofJson_iff`). A path leads in the value just where it leads in the data
(`Value.follow?_ofJson_iff`). All this together is `Value.ofJson_faithful`.
-/

namespace LayeredConfig

/-- A value of scalars, lists and plain maps: no reference, no secret and no map with spreads
stands in it at any depth. -/
inductive Value.IsData : Value → Prop where
  | scalar (s : Scalar) : IsData (.scalar s)
  | list {items : List Value} (all : ∀ v ∈ items, IsData v) : IsData (.list items)
  | map {fields : Fields} (all : ∀ f ∈ fields, IsData f.2) : IsData (.map fields)

/-! ### Indices -/

/-- A list of characters is read as a number exactly if it is a numeral and not too great. -/
theorem readDigits_eq_some_iff {digits : List Char} {n : Nat} :
    (if digits.isEmpty ∨ !digits.all (fun c => '0' ≤ c ∧ c ≤ '9') then none
      else
        let n := digits.foldl (fun n c => n * 10 + (c.toNat - '0'.toNat)) 0
        if n < UInt64.size then some n else none) = some n ↔
      Text.IsNumeral digits ∧ Nat.ofDigitChars 10 digits 0 = n ∧ n < UInt64.size := by
  have refused : (digits.isEmpty ∨ !digits.all (fun c => '0' ≤ c ∧ c ≤ '9')) ↔
      ¬ Text.IsNumeral digits := by
    simp only [Text.isDigit_eq, Text.IsNumeral, List.isEmpty_iff, Bool.not_eq_true',
      List.all_eq_false, not_and_or, not_not, not_forall, exists_prop]
  simp only [refused, Text.foldl_digits]
  by_cases numeral : Text.IsNumeral digits
  · simp only [numeral, not_true, if_false, true_and]
    constructor
    · intro found
      split at found
      · cases found
        exact ⟨rfl, ‹_›⟩
      · cases found
    · rintro ⟨rfl, small⟩
      exact if_pos small
  · simp only [numeral, not_false_eq_true, if_true, reduceCtorEq, false_and]

/-- The indices of lists are told by the texts that spell numbers. -/
theorem index?_eq_some_iff {segment : String} {n : Nat} :
    index? segment = some n ↔ Text.Spells segment n := by
  rw [index?]
  split
  · rename_i rest signed
    rw [readDigits_eq_some_iff, Text.Spells, signed]
    constructor
    · rintro ⟨numeral, value⟩
      exact ⟨rest, numeral, .inr rfl, value⟩
    · rintro ⟨digits, numeral, rfl | same, value⟩
      · exact absurd (numeral.2 '+' List.mem_cons_self) (by decide)
      · cases same
        exact ⟨numeral, value⟩
  · rename_i unsigned
    rw [readDigits_eq_some_iff, Text.Spells]
    constructor
    · rintro ⟨numeral, value⟩
      exact ⟨segment.toList, numeral, .inl rfl, value⟩
    · rintro ⟨digits, numeral, rfl | signed, value⟩
      · exact ⟨numeral, value⟩
      · exact absurd signed (unsigned digits)

namespace Value

/-! ### What data become -/

theorem ofItems_eq_map (items : List Json) : ofItems items = items.map ofJson := by
  induction items with
  | nil => rfl
  | cons j rest ih => rw [ofItems, ih, List.map_cons]

theorem ofFields_eq_mapValues (fields : List (String × Json)) :
    ofFields fields = Assoc.mapValues ofJson fields := by
  induction fields with
  | nil => rfl
  | cons f rest ih =>
    rw [ofFields, ih]
    rfl

theorem itemsJson_eq_map (items : List Value) : itemsJson items = items.map toJson := by
  induction items with
  | nil => rfl
  | cons v rest ih => rw [itemsJson, ih, List.map_cons]

theorem fieldsJson_eq_mapValues (fields : List (String × Value)) :
    fieldsJson fields = Assoc.mapValues toJson fields := by
  induction fields with
  | nil => rfl
  | cons f rest ih =>
    rw [fieldsJson, ih]
    rfl

theorem ofJson_array (items : List Json) : ofJson (.array items) = .list (items.map ofJson) := by
  rw [ofJson, ofItems_eq_map]

theorem ofJson_object (fields : List (String × Json)) :
    ofJson (.object fields) = .map (Assoc.mapValues ofJson fields) := by
  rw [ofJson, ofFields_eq_mapValues]

theorem toJson_list (items : List Value) : toJson (.list items) = .array (items.map toJson) := by
  rw [toJson, itemsJson_eq_map]

theorem toJson_map (fields : Fields) :
    toJson (.map fields) = .object (Assoc.mapValues toJson fields) := by
  rw [toJson, fieldsJson_eq_mapValues]

theorem isData_ofJson (j : Json) : (ofJson j).IsData := by
  induction j using Json.induct with
  | null => exact .scalar _
  | bool b => exact .scalar _
  | integer i =>
    rw [ofJson]
    split <;> exact .scalar _
  | float x finite => exact .scalar _
  | string s => exact .scalar _
  | array items ih =>
    rw [ofJson_array]
    refine .list fun v inside => ?_
    obtain ⟨j, there, rfl⟩ := List.mem_map.mp inside
    exact ih j there
  | object fields ih =>
    rw [ofJson_object]
    refine .map fun f inside => ?_
    obtain ⟨g, there, rfl⟩ := List.mem_map.mp inside
    exact ih g there

/-! ### There and back -/

theorem toJson_ofJson_integer_iff (i : Int) :
    (ofJson (.integer i)).toJson = .integer i ↔ inSigned64 i = true := by
  rw [ofJson]
  by_cases signed : inSigned64 i = true
  · have bounds : Int64.minValue.toInt ≤ i ∧ i ≤ Int64.maxValue.toInt := of_decide_eq_true signed
    have same : (Int64.ofInt i).toInt = i := by
      refine Int64.toInt_ofInt_of_le bounds.1 ?_
      have := bounds.2
      have max : Int64.maxValue.toInt = 2 ^ 63 - 1 := by decide
      omega
    simp [signed, toJson, Scalar.toJson, same]
  · have lost : (Scalar.float (.ofInt i)).toJson ≠ .integer i := by
      rw [Scalar.toJson, Json.ofBinary64]
      split <;> simp
    simp [signed, toJson, lost]

/-- Data are what they were exactly if 64 bits with a sign hold every integer in them. -/
theorem toJson_ofJson_iff (j : Json) :
    (ofJson j).toJson = j ↔ ∀ i, (Json.integer i).IsPart j → inSigned64 i = true := by
  induction j using Json.induct with
  | null => exact ⟨fun _ _ => (nomatch ·), fun _ => rfl⟩
  | bool b => exact ⟨fun _ _ => (nomatch ·), fun _ => rfl⟩
  | integer i =>
    rw [toJson_ofJson_integer_iff]
    constructor
    · rintro signed _ ⟨⟩
      exact signed
    · exact fun all => all i .whole
  | float x finite => exact ⟨fun _ _ => (nomatch ·), fun _ => dif_pos finite⟩
  | string s => exact ⟨fun _ _ => (nomatch ·), fun _ => rfl⟩
  | array items ih =>
    have same : (ofJson (.array items)).toJson = .array items ↔
        ∀ j ∈ items, (ofJson j).toJson = j := by
      rw [ofJson_array, toJson_list, List.map_map, Json.array.injEq]
      simpa using List.map_eq_map_iff (f := toJson ∘ ofJson) (g := id) (l := items)
    rw [same]
    constructor
    · intro all i part
      obtain whole | ⟨j, inside, part⟩ := Json.isPart_array_iff.mp part
      · cases whole
      · exact (ih j inside).mp (all j inside) i part
    · exact fun all j inside => (ih j inside).mpr fun i part => all i (.item inside part)
  | object fields ih =>
    have same : (ofJson (.object fields)).toJson = .object fields ↔
        ∀ f ∈ fields, (ofJson f.2).toJson = f.2 := by
      rw [ofJson_object, toJson_map, Json.object.injEq, Assoc.mapValues, Assoc.mapValues,
        List.map_map]
      simpa [Prod.ext_iff] using
        List.map_eq_map_iff (f := (fun f => (f.1, toJson f.2)) ∘ fun f => (f.1, ofJson f.2))
          (g := id) (l := fields)
    rw [same]
    constructor
    · intro all i part
      obtain whole | ⟨f, inside, part⟩ := Json.isPart_object_iff.mp part
      · cases whole
      · exact (ih f inside).mp (all f inside) i part
    · exact fun all f inside => (ih f inside).mpr fun i part => all i (.field inside part)

/-! ### Paths -/

theorem child?_ofJson_iff {j : Json} {segment : String} {v : Value} (machine : j.IsMachine) :
    (ofJson j).child? segment = some v ↔ ∃ k, j.Child segment k ∧ v = ofJson k := by
  cases machine with
  | null | bool | float | string => exact ⟨(nomatch ·), fun ⟨k, step, _⟩ => nomatch step⟩
  | integer low high =>
    rw [ofJson]
    split <;> exact ⟨(nomatch ·), fun ⟨k, step, _⟩ => nomatch step⟩
  | @array items all =>
    rw [ofJson_array, child?, Option.bind_eq_bind, Option.bind_eq_some_iff]
    simp only [index?_eq_some_iff, List.getElem?_map, Option.map_eq_some_iff]
    constructor
    · rintro ⟨n, index, k, there, rfl⟩
      exact ⟨k, .item index there, rfl⟩
    · rintro ⟨k, _ | ⟨index, there⟩, rfl⟩
      exact ⟨_, index, k, there, rfl⟩
  | @object fields distinct all =>
    rw [ofJson_object, child?, Assoc.get?_mapValues, Option.map_eq_some_iff]
    constructor
    · rintro ⟨k, found, rfl⟩
      exact ⟨k, .field (Assoc.mem_of_get? found), rfl⟩
    · rintro ⟨k, ⟨inside⟩, rfl⟩
      exact ⟨k, (Assoc.mem_iff_get? distinct).mp inside, rfl⟩

/-- A path leads in the value just where it leads in the data. -/
theorem follow?_ofJson_iff {j : Json} {path : List String} {v : Value} (machine : j.IsMachine) :
    (ofJson j).follow? path = some v ↔ ∃ k, j.Leads path k ∧ v = ofJson k := by
  induction path generalizing j with
  | nil =>
    constructor
    · rintro ⟨⟩
      exact ⟨j, .here j, rfl⟩
    · rintro ⟨_, ⟨⟩, rfl⟩
      rfl
  | cons segment path ih =>
    rw [follow?, Option.bind_eq_bind, Option.bind_eq_some_iff]
    constructor
    · rintro ⟨u, there, found⟩
      obtain ⟨k, step, rfl⟩ := (child?_ofJson_iff machine).mp there
      obtain ⟨l, leads, rfl⟩ := (ih (machine.child step)).mp found
      exact ⟨l, .onward step leads, rfl⟩
    · rintro ⟨l, ⟨⟩ | ⟨step, leads⟩, rfl⟩
      exact ⟨_, (child?_ofJson_iff machine).mpr ⟨_, step, rfl⟩,
        (ih (machine.child step)).mpr ⟨l, leads, rfl⟩⟩

/-- Data that a program holds survive as a value. Written out again they are the same data exactly
if nowhere in them, at any depth, stands an integer above the greatest one of 64 bits with a sign.
Neither a reference nor a secret nor a map with spreads stands in the value. Every path leads
somewhere in it exactly if it leads somewhere in the data, and then to what the data there become;
and the provider of a table of variables answers so. -/
theorem ofJson_faithful (j : Json) (machine : j.IsMachine) :
    ((ofJson j).toJson = j ↔ ¬ ∃ i, (Json.integer i).IsPart j ∧ Int64.maxValue.toInt < i) ∧
      (ofJson j).IsData ∧
      (∀ path v, (ofJson j).follow? path = some v ↔ ∃ k, j.Leads path k ∧ v = ofJson k) ∧
      ∀ table, j = .object table → ∀ trace path v,
        ((Provider.ofVariables table).fetch trace path).outcome = .ok v ↔
          ∃ k, j.Leads path k ∧ v = ofJson k := by
  refine ⟨?_, isData_ofJson j, fun path v => follow?_ofJson_iff machine, ?_⟩
  · rw [toJson_ofJson_iff]
    constructor
    · rintro signed ⟨i, part, great⟩
      have bounds : Int64.minValue.toInt ≤ i ∧ i ≤ Int64.maxValue.toInt :=
        of_decide_eq_true (signed i part)
      omega
    · intro small i part
      refine decide_eq_true ⟨machine.le_of_isPart part, Int.not_lt.mp fun great => ?_⟩
      exact small ⟨i, part, great⟩
  · rintro table rfl trace path v
    rw [← follow?_ofJson_iff machine, Provider.ofVariables]
    cases found : (ofJson (.object table)).follow? path with
    | none => simp [found]
    | some u => simp [found]

/-- Variables with a list and with an integer that takes all of 64 bits. -/
def limits : List (String × Json) :=
  [("zones", .array [.string "a", .string "b"]), ("quota", .integer 18446744073709551615)]

theorem ofJson_faithful_limits :
    (Json.object limits).IsMachine ∧
      (ofJson (.object limits)).toJson ≠ .object limits ∧
      (ofJson (.object limits)).IsData ∧
      (ofJson (.object limits)).follow? ["zones", "+01"] = some (.string "b") ∧
      ((Provider.ofVariables limits).fetch [] ["zones", "+01"]).outcome = .ok (.string "b") := by
  have machine : (Json.object limits).IsMachine := by
    refine .object (by decide) ?_
    simp only [limits, List.forall_mem_cons, List.not_mem_nil, false_implies, implies_true,
      and_true]
    refine ⟨.array ?_, .integer (by decide) (by decide)⟩
    simp only [List.forall_mem_cons, List.not_mem_nil, false_implies, implies_true, and_true]
    exact ⟨.string "a", .string "b"⟩
  have great : ∃ i, (Json.integer i).IsPart (.object limits) ∧ Int64.maxValue.toInt < i :=
    ⟨18446744073709551615, .field (.tail _ (.head _)) .whole, by decide⟩
  have index : Text.Spells "+01" 1 := ⟨['0', '1'], by decide, by decide, by decide, by decide⟩
  have leads : (Json.object limits).Leads ["zones", "+01"] (.string "b") :=
    .onward (.field (.head _)) (.onward (.item index rfl) (.here _))
  obtain ⟨same, data, paths, answers⟩ := ofJson_faithful (.object limits) machine
  exact ⟨machine, fun back => same.mp back great, data, (paths _ _).mpr ⟨_, leads, rfl⟩,
    (answers limits rfl [] _ _).mpr ⟨_, leads, rfl⟩⟩

end Value

end LayeredConfig
