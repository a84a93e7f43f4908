import LayeredConfig.Diagnostic.Record
import LayeredConfig.Proofs.Json.Text

/-!
# Records come back

What is written of an origin or of a diagnostic is read back as the same one
(`Diagnostic.read?_written`). A record is read by the names of its fields: whatever else stands in
the object, and in whatever order, makes no difference (`Json.record?_said`). So the statement is
about all data in which a record is written (`Origin.WrittenIn`, `Diagnostic.WrittenIn`), of which
its own data are one. A field that is left out is read as what it was left out for.
-/

namespace LayeredConfig

/-! ### Fields by name -/

namespace Assoc

variable {α : Type}

theorem filter_key {m : Assoc α} (distinct : (keys m).Nodup) (key : String) :
    m.filter (·.1 = key) = ((get? m key).map (key, ·)).toList := by
  induction m with
  | nil => rfl
  | cons p m ih =>
    obtain ⟨k, v⟩ := p
    obtain ⟨new, distinct⟩ := List.nodup_cons.mp distinct
    rw [List.filter_cons, get?_cons, ih distinct]
    by_cases here : k = key
    · subst here
      simp [get?_eq_none_iff.mpr new]
    · simp [here]

end Assoc

namespace Json

/-- The fields that have one of the given names. -/
def asked (names : List String) (fields : List (String × Json)) : List (String × Json) :=
  fields.filter (·.1 ∈ names)

section Records

variable {names : List String} {fields record : List (String × Json)}

theorem filter_asked {name : String} (known : name ∈ names) :
    (asked names fields).filter (·.1 = name) = fields.filter (·.1 = name) := by
  rw [asked, List.filter_filter]
  refine List.filter_congr fun f _ => ?_
  by_cases same : f.1 = name
  · simp [same, known]
  · simp [same]

/-- A field is found by its name among any others. -/
theorem field?_saidFields (same : (asked names fields).Perm record)
    (distinct : (Assoc.keys record).Nodup) {name : String} (known : name ∈ names) :
    field? (saidFields fields) name = some ((Assoc.get? record name).map said) := by
  have matching : fields.filter (·.1 = name) = ((Assoc.get? record name).map (name, ·)).toList := by
    have perm := same.filter (·.1 = name)
    rw [filter_asked known, Assoc.filter_key distinct] at perm
    cases found : Assoc.get? record name with
    | none =>
      rw [found] at perm
      exact List.perm_nil.mp perm
    | some j =>
      rw [found] at perm
      exact List.perm_singleton.mp perm
  have there : (saidFields fields).filter (·.1 = some name)
      = (fields.filter (·.1 = name)).map fun f => (some f.1, said f.2) := by
    rw [saidFields_eq_map, List.filter_map]
    simp [Function.comp_def]
  rw [field?, there, matching]
  cases Assoc.get? record name <;> rfl

/-- A record is read from its own fields, and other fields are passed over. -/
theorem record?_said (same : (asked names fields).Perm record)
    (distinct : (Assoc.keys record).Nodup) :
    (said (.object fields)).record? names
      = some (names.map fun name => (Assoc.get? record name).map said) := by
  have keyed : ¬ (saidFields fields).any (·.1.isNone) := by
    rw [saidFields_eq_map]
    simp
  have found : ∀ wanted, wanted ⊆ names → wanted.mapM (field? (saidFields fields))
      = some (wanted.map fun name => (Assoc.get? record name).map said) := by
    intro wanted known
    induction wanted with
    | nil => rfl
    | cons name wanted ih =>
      obtain ⟨here, others⟩ := List.cons_subset.mp known
      rw [List.mapM_cons, field?_saidFields same distinct here, ih others]
      rfl
  rw [said, Parsed.record?, if_neg keyed]
  exact found names (List.Subset.refl names)

theorem nat?_said {n : Nat} (small : n < UInt64.size) : (said (.ofNat n)).nat? = some n :=
  if_pos small

theorem keys_optionalField {α : Type} (name : String) (encode : α → Json) (a : Option α) :
    Assoc.keys (optionalField name encode a) = if a.isSome then [name] else [] := by
  cases a <;> rfl

theorem get?_optionalField {α : Type} (name : String) (encode : α → Json) (a : Option α)
    (key : String) :
    Assoc.get? (optionalField name encode a) key = if name = key then a.map encode else none := by
  cases a with
  | none => simp [optionalField]
  | some a => simp [optionalField, Assoc.get?_cons]

/-- A field that is there is read, although it might be missing. -/
theorem optional?_some {α : Type} {decode : Parsed → Option α} (null : decode .null = none)
    {v : Parsed} {a : α} (read : decode v = some a) :
    optional? decode (some v) = some (some a) := by
  have written : v ≠ .null := by
    rintro rfl
    rw [null] at read
    cases read
  rw [optional?, read]
  · rfl
  · exact written

theorem optional?_string (s : Option String) :
    optional? Parsed.string? (s.map fun s => .string s) = some s := by
  cases s with
  | none => rfl
  | some s => exact optional?_some rfl rfl

end Records

end Json

/-! ### Records among other fields -/

namespace Position

/-- All numbers of a position have 64 bits. -/
structure IsMachine (p : Position) : Prop where
  offset : p.offset < UInt64.size
  row : p.row < UInt64.size
  column : p.column < UInt64.size

/-- Data in which a position is written: its fields, in any order, and among them any others that
positions do not have. -/
inductive WrittenIn (p : Position) : Json → Prop where
  | object {fields : List (String × Json)}
      (known : (Json.asked ["offset", "row", "column"] fields).Perm
        [("offset", .ofNat p.offset), ("row", .ofNat p.row), ("column", .ofNat p.column)]) :
      WrittenIn p (.object fields)

theorem writtenIn_toJson (p : Position) : p.WrittenIn p.toJson := .object (.refl _)

theorem WrittenIn.ofParsed? {p : Position} {j : Json} (written : p.WrittenIn j)
    (machine : p.IsMachine) : ofParsed? j.said = some p := by
  obtain ⟨known⟩ := written
  rw [Position.ofParsed?, Json.record?_said known (by simp [Assoc.keys])]
  simp [Assoc.get?_cons, Json.nat?_said, machine.offset, machine.row, machine.column]

end Position

namespace Range

/-- Data in which a range is written. -/
inductive WrittenIn (r : Range) : Json → Prop where
  | object {fields : List (String × Json)} {start stop : Json}
      (known : (Json.asked ["start", "end"] fields).Perm [("start", start), ("end", stop)])
      (first : r.start.WrittenIn start) (last : r.stop.WrittenIn stop) :
      WrittenIn r (.object fields)

theorem writtenIn_toJson (r : Range) : r.WrittenIn r.toJson :=
  .object (.refl _) r.start.writtenIn_toJson r.stop.writtenIn_toJson

theorem WrittenIn.ofParsed? {r : Range} {j : Json} (written : r.WrittenIn j)
    (start : r.start.IsMachine) (stop : r.stop.IsMachine) : ofParsed? j.said = some r := by
  obtain ⟨known, first, last⟩ := written
  rw [Range.ofParsed?, Json.record?_said known (by simp [Assoc.keys])]
  simp [Assoc.get?_cons, first.ofParsed? start, last.ofParsed? stop]

end Range

namespace Origin

/-- All numbers of an origin have 64 bits. -/
structure IsMachine (o : Origin) : Prop where
  start : o.range.start.IsMachine
  stop : o.range.stop.IsMachine

/-- Data in which an origin is written. -/
inductive WrittenIn (o : Origin) : Json → Prop where
  | object {fields : List (String × Json)} {range : Json}
      (known : (Json.asked ["filename", "range"] fields).Perm
        [("filename", .string o.file), ("range", range)])
      (inside : o.range.WrittenIn range) : WrittenIn o (.object fields)

theorem writtenIn_toJson (o : Origin) : o.WrittenIn o.toJson :=
  .object (.refl _) o.range.writtenIn_toJson

theorem WrittenIn.ofParsed? {o : Origin} {j : Json} (written : o.WrittenIn j)
    (machine : o.IsMachine) : ofParsed? j.said = some o := by
  obtain ⟨known, inside⟩ := written
  rw [Origin.ofParsed?, Json.record?_said known (by simp [Assoc.keys])]
  simp [Assoc.get?_cons, inside.ofParsed? machine.start machine.stop, Json.said,
    Json.Parsed.string?]

/-- An origin that may be missing is read as it is. -/
theorem optional?_said {o : Option Origin} {place : Option Json}
    (inside : Option.Rel WrittenIn o place) (machine : ∀ x ∈ o, x.IsMachine) :
    Json.optional? ofParsed? (place.map Json.said) = some o := by
  cases inside with
  | none => rfl
  | some written => exact Json.optional?_some rfl (written.ofParsed? (machine _ rfl))

end Origin

namespace Diagnostic

/-- All numbers of a diagnostic have 64 bits. -/
def IsMachine (d : Diagnostic) : Prop := ∀ o ∈ d.origin, o.IsMachine

/-- The hints, if there are any. -/
def someHints (d : Diagnostic) : Option (List String) :=
  if d.hints.isEmpty then none else some d.hints

/-- The fields of a diagnostic, with data for its origin. -/
def fieldsWith (d : Diagnostic) (place : Option Json) : List (String × Json) :=
  Json.optionalField "code" .string d.code ++
  [("title", .string d.title), ("kind", .string d.severity.word)] ++
  Json.optionalField "problem" .string d.problem ++
  Json.optionalField "hints" (fun hints => .array (hints.map .string)) d.someHints ++
  Json.optionalField "location" id place

/-- The names of the fields that diagnostics have. -/
def fieldNames : List String := ["code", "title", "kind", "problem", "hints", "location"]

/-- Data in which a diagnostic is written: those of its fields that it has, in any order, and
among them any others that diagnostics do not have. -/
inductive WrittenIn (d : Diagnostic) : Json → Prop where
  | object {fields : List (String × Json)} {place : Option Json}
      (known : (Json.asked fieldNames fields).Perm (d.fieldsWith place))
      (inside : Option.Rel Origin.WrittenIn d.origin place) : WrittenIn d (.object fields)

theorem toJson_eq (d : Diagnostic) :
    d.toJson = .object (d.fieldsWith (d.origin.map Origin.toJson)) := by
  have hints : (if d.hints.isEmpty then [] else [("hints", Json.array (d.hints.map .string))])
      = Json.optionalField "hints" (fun hints => .array (hints.map .string)) d.someHints := by
    rw [someHints]
    split <;> rfl
  have place : Json.optionalField "location" Origin.toJson d.origin
      = Json.optionalField "location" id (d.origin.map Origin.toJson) := by
    cases d.origin <;> rfl
  rw [toJson, fieldsWith, hints, place]

/-- A diagnostic is written without a field that is absent or empty. -/
def Writes (d : Diagnostic) (name : String) : Prop :=
  name = "title" ∨ name = "kind" ∨ name = "code" ∧ d.code ≠ none ∨
    name = "problem" ∧ d.problem ≠ none ∨ name = "hints" ∧ d.hints ≠ [] ∨
    name = "location" ∧ d.origin ≠ none

theorem mem_keys_fieldsWith (d : Diagnostic) (name : String) :
    name ∈ Assoc.keys (d.fieldsWith (d.origin.map Origin.toJson)) ↔ d.Writes name := by
  have hints : d.someHints ≠ none ↔ d.hints ≠ [] := by
    rw [someHints]
    split <;> simp_all
  have required : ∀ title kind : Json, Assoc.keys [("title", title), ("kind", kind)]
      = ["title", "kind"] := fun _ _ => rfl
  simp only [fieldsWith, Assoc.keys_append, Json.keys_optionalField, required, List.mem_append,
    List.mem_ite_nil_right, List.mem_cons, List.not_mem_nil, or_false, Option.isSome_map,
    ← Option.ne_none_iff_isSome, hints, Writes]
  grind

/-- No diagnostic has a field twice, or one that is not asked for. -/
theorem keys_fieldsWith_sublist (d : Diagnostic) (place : Option Json) :
    (Assoc.keys (d.fieldsWith place)).Sublist fieldNames := by
  have one : ∀ {α : Type} (name : String) (encode : α → Json) (a : Option α),
      (Assoc.keys (Json.optionalField name encode a)).Sublist [name] := by
    intro α name encode a
    rw [Json.keys_optionalField]
    split
    · exact .refl _
    · exact List.nil_sublist _
  simp only [fieldsWith, Assoc.keys_append]
  exact ((((one "code" _ _).append (.refl ["title", "kind"])).append (one "problem" _ _)).append
    (one "hints" _ _)).append (one "location" _ _)

theorem writtenIn_toJson (d : Diagnostic) : d.WrittenIn d.toJson := by
  have inside : Option.Rel Origin.WrittenIn d.origin (d.origin.map Origin.toJson) := by
    cases d.origin with
    | none => exact .none
    | some o => exact .some o.writtenIn_toJson
  have all : Json.asked fieldNames (d.fieldsWith (d.origin.map Origin.toJson))
      = d.fieldsWith (d.origin.map Origin.toJson) := by
    refine List.filter_eq_self.mpr fun f known => decide_eq_true ?_
    exact (keys_fieldsWith_sublist d _).subset (List.mem_map_of_mem known)
  rw [toJson_eq]
  exact .object (.of_eq all) inside

/-- What is found of a diagnostic under the names of its fields. -/
theorem record?_said {d : Diagnostic} {fields : List (String × Json)} {place : Option Json}
    (known : (Json.asked fieldNames fields).Perm (d.fieldsWith place)) :
    (Json.said (.object fields)).record? fieldNames = some
      [d.code.map fun s => .string s, some (.string d.title), some (.string d.severity.word),
        d.problem.map fun s => .string s,
        d.someHints.map fun hints => .array (hints.map .string), place.map Json.said] := by
  have distinct := (keys_fieldsWith_sublist d place).nodup (by decide)
  have string : ∀ s, Json.said (.string s) = .string s := fun s => by rw [Json.said]
  have hints : ∀ hints : List String, Json.said (.array (hints.map .string))
      = .array (hints.map .string) := by
    intro hints
    rw [Json.said, Json.saidItems_eq_map, List.map_map]
    exact congrArg _ (List.map_congr_left fun s _ => string s)
  rw [Json.record?_said known distinct]
  simp [fieldNames, fieldsWith, Assoc.get?_append, Assoc.get?_cons, Json.get?_optionalField,
    Function.comp_def, string, hints]

theorem someHints_cases (d : Diagnostic) :
    d.someHints = none ∧ d.hints = [] ∨ d.someHints = some d.hints := by
  rw [someHints]
  split
  · exact .inl ⟨rfl, List.isEmpty_iff.mp ‹_›⟩
  · exact .inr rfl

theorem hintsOfParsed?_said (hints : List String) :
    hintsOfParsed? (.array (hints.map .string)) = some hints := by
  rw [hintsOfParsed?, List.mapM_map]
  exact List.mapM_pure.trans (congrArg some (List.map_id hints))

theorem WrittenIn.ofParsed? {d : Diagnostic} {j : Json} (written : d.WrittenIn j)
    (machine : d.IsMachine) : ofParsed? j.said = some d := by
  obtain ⟨known, inside⟩ := written
  have recorded := record?_said known
  rw [fieldNames] at recorded
  rw [Diagnostic.ofParsed?, recorded]
  simp only [Option.bind_eq_bind, Option.bind_some, Json.optional?_string, Json.Parsed.string?,
    Severity.ofParsed?, Severity.ofWord?_word, Origin.optional?_said inside machine]
  -- Hints that are left out are none.
  obtain ⟨missing, empty⟩ | given := d.someHints_cases
  · rw [missing, Option.map_none, ← empty]
    rfl
  · rw [given, Option.map_some]
    dsimp only
    rw [hintsOfParsed?_said]
    rfl

end Diagnostic

/-- A diagnostic is read back from its text as it is, although a field that is absent or empty is
left out, and so is an origin. Fields that a record does not have make no difference, in the
record itself or in the records inside it. -/
theorem Diagnostic.read?_written :
    (∀ d : Diagnostic, d.IsMachine →
      read? d.toJson.text = some d ∧
      (∃ fields, d.toJson = .object fields ∧ ∀ name, name ∈ Assoc.keys fields ↔ d.Writes name) ∧
      ∀ j, d.WrittenIn j → read? j.text = some d) ∧
    ∀ o : Origin, o.IsMachine →
      Origin.read? o.toJson.text = some o ∧ ∀ j, o.WrittenIn j → Origin.read? j.text = some o := by
  have ofDiagnostic : ∀ {d : Diagnostic}, d.IsMachine → ∀ j, d.WrittenIn j →
      read? j.text = some d := by
    intro d machine j written
    rw [read?, Json.read?_text]
    exact written.ofParsed? machine
  have ofOrigin : ∀ {o : Origin}, o.IsMachine → ∀ j, o.WrittenIn j →
      Origin.read? j.text = some o := by
    intro o machine j written
    rw [Origin.read?, Json.read?_text]
    exact written.ofParsed? machine
  refine ⟨fun d machine => ⟨?_, ?_, ofDiagnostic machine⟩,
    fun o machine => ⟨ofOrigin machine _ o.writtenIn_toJson, ofOrigin machine⟩⟩
  · exact ofDiagnostic machine _ d.writtenIn_toJson
  · exact ⟨_, d.toJson_eq, d.mem_keys_fieldsWith⟩

namespace Diagnostic

/-- The place of a comma that should not be there. -/
def comma : Origin where
  file := "base\\dev.json"
  range := { start := { offset := 7, row := 1, column := 2 }
             stop := { offset := 8, row := 1, column := 3 } }

/-- A warning without a code or a problem, with characters that are escaped. -/
def trailing : Diagnostic where
  title := "a \"comma\"\nat the end"
  severity := .warning
  hints := ["remove it", ""]
  origin := some comma

/-- The data of a place, with a field for a host. -/
def hosted : Json :=
  .object [("filename", .string comma.file), ("host", .null), ("range", comma.range.toJson)]

/-- The data of the warning, with a field for a time, and with title and kind in another order. -/
def dated : Json :=
  .object [("kind", .string "warning"), ("title", .string trailing.title),
    ("time", .array [.integer (-5), .object [("title", .bool true)]]),
    ("hints", .array [.string "remove it", .string ""]), ("location", hosted)]

theorem read?_written_dated :
    (trailing.IsMachine ∧ trailing.WrittenIn dated) ∧ (comma.IsMachine ∧ comma.WrittenIn hosted) ∧
      read? trailing.toJson.text = some trailing ∧
      (∃ fields, trailing.toJson = .object fields ∧
        "hints" ∈ Assoc.keys fields ∧ "code" ∉ Assoc.keys fields) ∧
      read? dated.text = some trailing ∧
      Origin.read? comma.toJson.text = some comma ∧ Origin.read? hosted.text = some comma := by
  have place : comma.IsMachine :=
    ⟨⟨by decide, by decide, by decide⟩, ⟨by decide, by decide, by decide⟩⟩
  have machine : trailing.IsMachine := by
    rintro _ ⟨⟩
    exact place
  have inHosted : comma.WrittenIn hosted := .object (.refl _) comma.range.writtenIn_toJson
  have inDated : trailing.WrittenIn dated := by
    refine .object ?_ (.some inHosted)
    exact .swap ("title", .string trailing.title) ("kind", .string "warning")
      [("hints", .array [.string "remove it", .string ""]), ("location", hosted)]
  obtain ⟨same, ⟨fields, written, names⟩, all⟩ := read?_written.1 trailing machine
  obtain ⟨samePlace, allPlaces⟩ := read?_written.2 comma place
  refine ⟨⟨machine, inDated⟩, ⟨place, inHosted⟩, same, ⟨fields, written, ?_, ?_⟩, all _ inDated,
    samePlace, allPlaces _ inHosted⟩
  · rw [names, Writes]
    decide
  · rw [names, Writes]
    decide

end Diagnostic

end LayeredConfig
