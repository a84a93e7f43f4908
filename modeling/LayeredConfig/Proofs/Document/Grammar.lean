import LayeredConfig.Document.Conversion

/-!
# Which documents are converted, and what is reported of the others

`Document.visits` lists what the conversion of a document looks at, in document order: the
names of sections and sources, the entries, the places where an entry has no expression, and
the expressions, each with its depth, its origin and the keys and indices that lead to it. The
arguments of a call are not among them. `Subject.Admissible` is the grammar, visit by visit, and
`Subject.Violates` names the cause if a visit breaks it.

The main result, `Document.convert_iff`, says that a document is converted just if all of its
visits are admissible, and that the error of any other document is that of its first visit
that is not: its cause, its own origin, and the way to it.
-/

namespace LayeredConfig

/-- Induction over an expression, with the parts of a container as a list. -/
@[elab_as_elim]
theorem Expr.induct {P : Expr → Prop} (atom : ∀ origin a, P (.atom origin a))
    (map : ∀ origin entries, (∀ e ∈ entries, ∀ v, RawEntry.value e = some v → P v) →
      P (.map origin entries))
    (list : ∀ origin items, (∀ e ∈ items, P e) → P (.list origin items))
    (secret : ∀ origin inner, P inner → P (.secret origin inner))
    (call : ∀ origin name args, P (.call origin name args)) : ∀ e, P e
  | .atom origin a => atom origin a
  | .map origin entries => map origin entries fun ⟨key, value, spread, origin⟩ he v _ =>
    have := List.sizeOf_lt_of_mem he
    induct atom map list secret call v
  | .list origin items => list origin items fun e he =>
    have := List.sizeOf_lt_of_mem he
    induct atom map list secret call e
  | .secret origin inner => secret origin inner (induct atom map list secret call inner)
  | .call origin name args => call origin name args
decreasing_by all_goals simp_all <;> omega

/-! ### Visits -/

/-- What the conversion looks at in one visit. -/
inductive Subject where
  /-- The name of a section or the alias of a source. -/
  | name (text : String)
  /-- An entry, inside or outside the configuration of a source. -/
  | entry (inConfig : Bool) (e : RawEntry Expr)
  /-- The place where an entry has no expression. -/
  | gap
  | expr (depth : Nat) (e : Expr)

/-- One visit. -/
structure Visit where
  subject : Subject
  origin : Origin
  /-- The way to it, outermost step first. -/
  under : List ConversionStep := []

/-- A visit as seen from a container. -/
def Visit.inStep (step : ConversionStep) (v : Visit) : Visit := { v with under := step :: v.under }

def Expr.visit (depth : Nat) (e : Expr) : Visit := { subject := .expr depth e, origin := e.origin }

mutual
/-- The visits to an expression at a depth: it comes before its parts. -/
def Expr.visits (inConfig : Bool) (depth : Nat) : Expr → List Visit
  | .atom origin a => [(Expr.atom origin a).visit depth]
  | .map origin entries =>
    (Expr.map origin entries).visit depth :: entriesVisits inConfig (depth + 1) entries
  | .list origin items =>
    (Expr.list origin items).visit depth :: itemVisits inConfig (depth + 1) 0 items
  | .secret origin inner =>
    (Expr.secret origin inner).visit depth :: inner.visits inConfig (depth + 1)
  | .call origin name args => [(Expr.call origin name args).visit depth]

/-- The visits to items of a list, counted from `index`. -/
def itemVisits (inConfig : Bool) (depth : Nat) : (index : Nat) → List Expr → List Visit
  | _, [] => []
  | index, e :: rest =>
    (e.visits inConfig depth).map (.inStep (.index index))
      ++ itemVisits inConfig depth (index + 1) rest

def entriesVisits (inConfig : Bool) (depth : Nat) : List (RawEntry Expr) → List Visit
  | [] => []
  | e :: rest => entryVisits inConfig depth e ++ entriesVisits inConfig depth rest

/-- The visits to an entry: first the entry itself, then its value, under its key if it is
no spread. -/
def entryVisits (inConfig : Bool) (depth : Nat) : RawEntry Expr → List Visit
  | ⟨key, value, spread, origin⟩ =>
    { subject := .entry inConfig ⟨key, value, spread, origin⟩, origin } ::
      match spread, key with
      | false, some key => (valueVisits inConfig depth origin value).map (.inStep (.key key))
      | _, _ => valueVisits inConfig depth origin value

/-- The visits to the value of an entry with a given origin. -/
def valueVisits (inConfig : Bool) (depth : Nat) (origin : Origin) : Option Expr → List Visit
  | none => [{ subject := .gap, origin }]
  | some e => e.visits inConfig depth
end

def Body.visits : Body → List Visit
  | .inline e => e.visits false 1
  | .block entries => entriesVisits false 1 entries

def Statement.visits : Statement → List Visit
  | .define name body origin =>
    { subject := .name name, origin } :: body.visits.map (.inStep (.key name))
  | .source s =>
    { subject := .name s.alias, origin := s.origin } ::
      (entriesVisits true 1 s.config).map (.inStep (.key s.alias))
  | .spread e _ => e.visits false 1

/-- Everything that the conversion of a document looks at, in document order. -/
def Document.visits (d : Document) : List Visit := d.statements.flatMap Statement.visits

/-! ### The grammar -/

/-- An entry that contributes the fields of its value: it is marked as a spread, or has no key
and is a reference with a wildcard. -/
def RawEntry.Contributes (e : RawEntry Expr) : Prop :=
  e.spread = true ∨ e.key = none ∧ ∃ origin «alias» path,
    e.value = some (.atom origin (.reference «alias» path)) ∧ Reference.wildcard ∈ path

def Expr.IsCall (e : Expr) : Prop := ∃ origin name args, e = .call origin name args

/-- What a document may hold: names that are not empty; entries that are not both marked and
keyed, that contribute fields only outside source configurations and have a key that is not
empty otherwise, and that have an expression; and expressions that are nested no deeper than
allowed and are no calls. -/
def Subject.Admissible : Subject → Prop
  | .name text => text ≠ ""
  | .entry inConfig e =>
    (e.spread = true → e.key = none) ∧ (e.Contributes → inConfig = false) ∧
      (¬ e.Contributes → ∃ key, e.key = some key ∧ key ≠ "")
  | .gap => False
  | .expr depth e => depth ≤ maxDepth ∧ ¬ e.IsCall

/-- What is wrong with a visit that is not admissible. If several things are, the depth comes
before the kind of an expression; and of an entry, that it is marked and keyed comes before
that it is a spread in a source configuration, and this before its empty key. -/
inductive Subject.Violates : Subject → ConversionCause → Prop
  | emptyName : Violates (.name "") .emptyKey
  | keyedSpread {inConfig : Bool} {e : RawEntry Expr} {key : String} (marked : e.spread = true)
      (keyed : e.key = some key) : Violates (.entry inConfig e) (.keyedSpread key)
  | spreadNotAllowed {e : RawEntry Expr} (one : e.spread = true → e.key = none)
      (contributes : e.Contributes) : Violates (.entry true e) .spreadNotAllowed
  | emptyKey {inConfig : Bool} {e : RawEntry Expr} (field : ¬ e.Contributes)
      (empty : e.key = none ∨ e.key = some "") : Violates (.entry inConfig e) .emptyKey
  | missingExpression : Violates .gap .missingExpression
  | tooDeep {depth : Nat} {e : Expr} (deep : maxDepth < depth) : Violates (.expr depth e) .tooDeep
  | unsupported {depth : Nat} {origin : Origin} {name : String} {args : List Expr}
      (shallow : depth ≤ maxDepth) :
      Violates (.expr depth (.call origin name args)) (.unsupported s!"function call `{name}`")

/-- What is wrong with a visit, if anything is. -/
def Subject.fault? : Subject → Option ConversionCause
  | .name text => if text = "" then some .emptyKey else none
  | .entry inConfig e =>
    match e.spread, e.key with
    | true, some key => some (.keyedSpread key)
    | _, key =>
      if e.isSpread then if inConfig then some .spreadNotAllowed else none
      else if key.getD "" = "" then some .emptyKey
      else none
  | .gap => some .missingExpression
  | .expr depth e =>
    if maxDepth < depth then some .tooDeep
    else match e with
      | .call _ function _ => some (.unsupported s!"function call `{function}`")
      | _ => none

theorem RawEntry.isSpread_iff (e : RawEntry Expr) : e.isSpread = true ↔ e.Contributes := by
  have wild : (e.value.bind Expr.wildcard?).getD false = true ↔ ∃ origin «alias» path,
      e.value = some (.atom origin (.reference «alias» path)) ∧ Reference.wildcard ∈ path := by
    rcases e.value with _ | ⟨origin, a⟩ | _ | _ | _ | _
    case some.atom => cases a <;> simp [Expr.wildcard?, Reference.hasWildcard, and_assoc]
    all_goals simp [Expr.wildcard?]
  simp [isSpread, Contributes, wild]

theorem Subject.Violates.fault? {s : Subject} {cause : ConversionCause}
    (violates : s.Violates cause) : s.fault? = some cause := by
  cases violates with
  | emptyName => rfl
  | keyedSpread marked keyed => simp [Subject.fault?, marked, keyed]
  | @spreadNotAllowed e one contributes =>
    rw [Subject.fault?]
    split
    · rename_i key marked keyed
      cases keyed.symm.trans (one marked)
    · rw [if_pos (e.isSpread_iff.mpr contributes), if_pos rfl]
  | @emptyKey inConfig e field empty =>
    rw [Subject.fault?]
    split
    · rename_i key marked keyed
      exact absurd (.inl marked) field
    · have none : e.key.getD "" = "" := by obtain none | empty := empty <;> simp [*]
      rw [if_neg (mt e.isSpread_iff.mp field), if_pos none]
  | missingExpression => rfl
  | tooDeep deep => exact if_pos deep
  | unsupported shallow => exact if_neg (Nat.not_lt_of_le shallow)

theorem Subject.Admissible.fault? {s : Subject} (fine : s.Admissible) : s.fault? = none := by
  cases s with
  | name text => exact if_neg fine
  | entry inConfig e =>
    obtain ⟨one, outside, keyed⟩ := fine
    rw [Subject.fault?]
    split
    · rename_i key marked here
      cases here.symm.trans (one marked)
    · by_cases contributes : e.Contributes
      · rw [if_pos (e.isSpread_iff.mpr contributes), outside contributes]
        rfl
      · obtain ⟨key, here, filled⟩ := keyed contributes
        rw [if_neg (mt e.isSpread_iff.mp contributes), here, Option.getD_some, if_neg filled]
  | gap => exact fine.elim
  | expr depth e =>
    cases e with
    | call origin name args => exact absurd ⟨_, _, _, rfl⟩ fine.2
    | _ => exact if_neg (Nat.not_lt_of_le fine.1)

/-- A visit is admissible, or something is wrong with it. -/
theorem Subject.admissible_or_violates (s : Subject) :
    s.Admissible ∨ ∃ cause, s.Violates cause := by
  cases s with
  | name text =>
    by_cases empty : text = ""
    · subst empty
      exact .inr ⟨_, .emptyName⟩
    · exact .inl empty
  | entry inConfig e =>
    by_cases one : e.spread = true → e.key = none
    · by_cases contributes : e.Contributes
      · cases inConfig with
        | false => exact .inl ⟨one, fun _ => rfl, fun field => absurd contributes field⟩
        | true => exact .inr ⟨_, .spreadNotAllowed one contributes⟩
      · cases keyed : e.key with
        | none => exact .inr ⟨_, .emptyKey contributes (.inl keyed)⟩
        | some key =>
          by_cases empty : key = ""
          · subst empty
            exact .inr ⟨_, .emptyKey contributes (.inr keyed)⟩
          · exact .inl ⟨one, fun c => absurd c contributes, fun _ => ⟨key, keyed, empty⟩⟩
    · obtain ⟨marked, keyed⟩ := Classical.not_imp.mp one
      obtain ⟨key, keyed⟩ := Option.ne_none_iff_exists'.mp keyed
      exact .inr ⟨_, .keyedSpread marked keyed⟩
  | gap => exact .inr ⟨_, .missingExpression⟩
  | expr depth e =>
    by_cases deep : maxDepth < depth
    · exact .inr ⟨_, .tooDeep deep⟩
    · have shallow := Nat.le_of_not_lt deep
      by_cases call : e.IsCall
      · obtain ⟨origin, name, args, rfl⟩ := call
        exact .inr ⟨_, .unsupported shallow⟩
      · exact .inl ⟨shallow, call⟩

theorem Subject.fault?_eq_none_iff (s : Subject) : s.fault? = none ↔ s.Admissible := by
  refine ⟨fun none => ?_, Admissible.fault?⟩
  obtain fine | ⟨cause, violates⟩ := s.admissible_or_violates
  · exact fine
  · cases none.symm.trans violates.fault?

theorem Subject.fault?_eq_some_iff (s : Subject) (cause : ConversionCause) :
    s.fault? = some cause ↔ s.Violates cause := by
  refine ⟨fun some => ?_, Violates.fault?⟩
  obtain fine | ⟨cause', violates⟩ := s.admissible_or_violates
  · cases some.symm.trans fine.fault?
  · cases some.symm.trans violates.fault?
    exact violates

/-! ### Reports -/

section Reports

variable {α β : Type} {r : Converting α} {v : Visit} {vs ws : List Visit}

/-- The error of a conversion that fails. -/
def failure? : Converting α → Option ConversionError
  | .ok _ => none
  | .error e => some e

theorem failure?_eq_some_iff {e : ConversionError} : failure? r = some e ↔ r = .error e := by
  cases r <;> simp [failure?]

theorem failure?_eq_none_iff : failure? r = none ↔ ∃ a, r = .ok a := by
  cases r <;> simp [failure?]

/-- The error that a visit leads to. -/
def Visit.error? (v : Visit) : Option ConversionError :=
  v.subject.fault?.map fun cause => { cause, origin := v.origin, under := v.under }

theorem Visit.error?_eq_none_iff : v.error? = none ↔ v.subject.Admissible := by
  rw [Visit.error?, Option.map_eq_none_iff, Subject.fault?_eq_none_iff]

/-- A conversion fails with the error of the first of its visits that has one. -/
def Reports (r : Converting α) (vs : List Visit) : Prop :=
  failure? r = vs.findSome? Visit.error?

theorem Reports.pure (a : α) : Reports (Pure.pure a) [] := rfl

theorem Reports.bind {f : α → Converting β} (first : Reports r vs)
    (rest : ∀ a, Reports (f a) ws) : Reports (r >>= f) (vs ++ ws) := by
  unfold Reports at *
  rw [List.findSome?_append, ← first]
  cases r with
  | ok a => exact rest a
  | error e => rfl

/-- What is done with a result changes no report. -/
theorem Reports.map {g : α → β} (first : Reports r vs) :
    Reports (r >>= fun a => Pure.pure (g a)) vs := by
  rw [← List.append_nil vs]
  exact first.bind fun a => .pure (g a)

theorem Reports.pass (fine : v.subject.Admissible) (rest : Reports r vs) :
    Reports r (v :: vs) := by
  unfold Reports at *
  rw [rest, List.findSome?_cons, Visit.error?, fine.fault?]
  rfl

theorem Reports.refuse {cause : ConversionCause} (wrong : v.subject.Violates cause) :
    Reports (throw { cause, origin := v.origin, under := v.under } : Converting α) (v :: vs) := by
  rw [Reports, List.findSome?_cons, Visit.error?, wrong.fault?]
  rfl

theorem Visit.error?_inStep (step : ConversionStep) (v : Visit) :
    (v.inStep step).error? = v.error?.map (.inStep step) := by
  rw [error?, error?, Option.map_map]
  rfl

theorem Reports.under (step : ConversionStep) (inner : Reports r vs) :
    Reports (LayeredConfig.under step r) (vs.map (.inStep step)) := by
  unfold Reports at *
  have errors : Visit.error? ∘ Visit.inStep step
      = Option.map (ConversionError.inStep step) ∘ Visit.error? :=
    funext fun v => v.error?_inStep step
  rw [List.findSome?_map, errors, ← List.map_findSome?, ← inner]
  cases r <;> rfl

/-! ### Each part of the conversion reports its visits -/

theorem reports_checkDepth {depth : Nat} {e : Expr} (value : ¬ e.IsCall) (rest : Reports r vs) :
    Reports (checkDepth depth e.origin >>= fun _ => r) (e.visit depth :: vs) := by
  rw [checkDepth]
  split
  · rename_i deep
    exact .refuse (v := e.visit depth) (.tooDeep deep)
  · rename_i shallow
    exact rest.pass ⟨Nat.le_of_not_lt shallow, value⟩

variable {inConfig : Bool}

theorem reports_items {items : List Expr} {depth : Nat}
    (parts : ∀ e ∈ items, Reports (e.convert inConfig depth) (e.visits inConfig depth))
    (index : Nat) :
    Reports (convertItems inConfig depth index items) (itemVisits inConfig depth index items) := by
  induction items generalizing index with
  | nil => exact .pure []
  | cons e items ih =>
    have ih := ih (fun e' he => parts e' (List.mem_cons_of_mem _ he)) (index + 1)
    exact ((parts e (List.mem_cons_self ..)).under _).bind fun v => ih.map

theorem reports_value {value : Option Expr} {depth : Nat}
    (part : ∀ e, value = some e → Reports (e.convert inConfig depth) (e.visits inConfig depth))
    (origin : Origin) : Reports (convertValue inConfig depth origin value)
      (valueVisits inConfig depth origin value) := by
  cases value with
  | none => exact .refuse (v := { subject := .gap, origin }) .missingExpression
  | some e => exact part e rfl

/-- The step from a map to the value of one of its entries: the key, unless the entry is marked
as a spread. -/
def RawEntry.step? (e : RawEntry Expr) : Option ConversionStep :=
  if e.spread then none else e.key.map .key

/-- An entry is refused for its own fault, and otherwise its value is converted. It keeps its key
and its origin. -/
theorem convertEntry_eq (inConfig : Bool) (depth : Nat) (e : RawEntry Expr) :
    convertEntry inConfig depth e =
      match (Subject.entry inConfig e).fault? with
      | some cause => throw { cause, origin := e.origin }
      | none => do
        let r := convertValue inConfig depth e.origin e.value
        let v ← e.step?.elim r (LayeredConfig.under · r)
        return { key := e.key, value := v, origin := e.origin } := by
  obtain ⟨key, value, spread, origin⟩ := e
  rw [convertEntry.eq_def, Subject.fault?]
  match key, spread with
  | some key, true => rfl
  | some key, false =>
    have field : RawEntry.isSpread ⟨some key, value, false, origin⟩ = false := rfl
    simp only [field, Bool.false_eq_true, if_false, Option.getD_some]
    split <;> rfl
  | none, spread =>
    cases spread <;> cases inConfig <;> dsimp only <;> split <;> rfl

theorem entryVisits_eq (inConfig : Bool) (depth : Nat) (e : RawEntry Expr) :
    entryVisits inConfig depth e =
      let vs := valueVisits inConfig depth e.origin e.value
      { subject := .entry inConfig e, origin := e.origin } ::
        e.step?.elim vs fun step => vs.map (.inStep step) := by
  obtain ⟨_ | key, value, _ | _, origin⟩ := e <;> rfl

/-- The visit to an entry itself, which comes before those to its value. -/
def RawEntry.visit (inConfig : Bool) (e : RawEntry Expr) : Visit :=
  { subject := .entry inConfig e, origin := e.origin }

theorem reports_entry {e : RawEntry Expr} {depth : Nat}
    (part : ∀ v, e.value = some v → Reports (v.convert inConfig depth) (v.visits inConfig depth)) :
    Reports (convertEntry inConfig depth e) (entryVisits inConfig depth e) := by
  have inner := reports_value part e.origin
  rw [convertEntry_eq, entryVisits_eq]
  cases fault : (Subject.entry inConfig e).fault? with
  | some cause => exact .refuse (v := e.visit inConfig) ((Subject.fault?_eq_some_iff _ _).mp fault)
  | none =>
    refine .pass (v := e.visit inConfig) ((Subject.fault?_eq_none_iff _).mp fault) ?_
    cases e.step? with
    | none => exact inner.map
    | some step => exact (inner.under step).map

theorem reports_entries {entries : List (RawEntry Expr)} {depth : Nat}
    (parts : ∀ e ∈ entries, ∀ v, e.value = some v →
      Reports (v.convert inConfig depth) (v.visits inConfig depth)) :
    Reports (convertEntries inConfig depth entries) (entriesVisits inConfig depth entries) := by
  induction entries with
  | nil => exact .pure []
  | cons e entries ih =>
    have ih := ih fun e' he => parts e' (List.mem_cons_of_mem _ he)
    exact (reports_entry (parts e (List.mem_cons_self ..))).bind fun v => ih.map

theorem Expr.reports (e : Expr) :
    ∀ inConfig depth, Reports (e.convert inConfig depth) (e.visits inConfig depth) := by
  induction e using Expr.induct with
  | atom origin a =>
    intro inConfig depth
    exact reports_checkDepth (e := .atom origin a) (by simp [IsCall]) (.pure (a.value origin))
  | map origin entries ih =>
    intro inConfig depth
    exact reports_checkDepth (e := .map origin entries) (by simp [IsCall])
      (reports_entries fun e he v hv => ih e he v hv inConfig (depth + 1)).map
  | list origin items ih =>
    intro inConfig depth
    exact reports_checkDepth (e := .list origin items) (by simp [IsCall])
      (reports_items (fun e he => ih e he inConfig (depth + 1)) 0).map
  | secret origin inner ih =>
    intro inConfig depth
    exact reports_checkDepth (e := .secret origin inner) (by simp [IsCall])
      (ih inConfig (depth + 1)).map
  | call origin name args =>
    intro inConfig depth
    rw [convert, checkDepth]
    split
    · rename_i deep
      exact .refuse (v := (call origin name args).visit depth) (.tooDeep deep)
    · rename_i shallow
      exact .refuse (v := (call origin name args).visit depth)
        (.unsupported (Nat.le_of_not_lt shallow))

theorem Body.reports (b : Body) : Reports b.convert b.visits := by
  cases b with
  | inline e => exact e.reports false 1
  | block entries => exact (reports_entries fun _ _ v _ => v.reports false 1).map

theorem reports_section (name : String) (body : Body) (origin : Origin) :
    Reports (convertSection name body origin) (Statement.define name body origin).visits := by
  rw [convertSection]
  split
  · rename_i empty
    subst empty
    exact .refuse (v := { subject := .name "", origin }) .emptyName
  · rename_i named
    exact (body.reports.under _).map.pass named

theorem SourceStatement.reports (s : SourceStatement) :
    Reports s.convert (Statement.source s).visits := by
  rw [SourceStatement.convert]
  split
  · rename_i empty
    rw [Statement.visits, empty]
    exact .refuse (v := { subject := .name "", origin := s.origin }) .emptyName
  · rename_i named
    exact ((reports_entries fun _ _ v _ => v.reports true 1).under _).map.pass named

theorem reports_statements (statements : List Statement) :
    Reports (convertStatements statements) (statements.flatMap Statement.visits) := by
  induction statements with
  | nil => exact .pure _
  | cons s rest ih =>
    rw [List.flatMap_cons]
    cases s with
    | define name body origin => exact (reports_section name body origin).bind fun _ => ih.map
    | source s => exact s.reports.bind fun _ => ih.map
    | spread e origin => exact (e.reports false 1).bind fun _ => ih.map

theorem Document.reports (d : Document) : Reports d.convert d.visits :=
  (reports_statements d.statements).map

end Reports

/-- A document is converted just if all that the conversion looks at is admissible; and it is
refused with an error just if that is what is wrong with the first visit that is not
admissible, at the origin of this visit and under the keys and indices that lead to it. -/
theorem Document.convert_iff (d : Document) :
    ((∃ converted, d.convert = .ok converted) ↔ ∀ v ∈ d.visits, v.subject.Admissible) ∧
      ∀ e, d.convert = .error e ↔ ∃ before v after, d.visits = before ++ v :: after ∧
        (∀ u ∈ before, u.subject.Admissible) ∧ v.subject.Violates e.cause ∧
        e.origin = v.origin ∧ e.under = v.under := by
  have reports : failure? d.convert = d.visits.findSome? Visit.error? := d.reports
  have wrong (v : Visit) (e : ConversionError) : v.error? = some e ↔
      v.subject.Violates e.cause ∧ e.origin = v.origin ∧ e.under = v.under := by
    simp only [Visit.error?, Option.map_eq_some_iff, Subject.fault?_eq_some_iff]
    constructor
    · rintro ⟨cause, violates, rfl⟩
      exact ⟨violates, rfl, rfl⟩
    · rintro ⟨violates, origin, under⟩
      exact ⟨e.cause, violates, by rw [← origin, ← under]⟩
  constructor
  · simp only [← failure?_eq_none_iff, reports, List.findSome?_eq_none_iff,
      Visit.error?_eq_none_iff]
  · intro e
    simp only [← failure?_eq_some_iff, reports, List.findSome?_eq_some_iff, wrong,
      Visit.error?_eq_none_iff]
    constructor
    · rintro ⟨before, v, after, place, ⟨violates, origin, under⟩, first⟩
      exact ⟨before, v, after, place, first, violates, origin, under⟩
    · rintro ⟨before, v, after, place, first, violates, origin, under⟩
      exact ⟨before, v, after, place, ⟨violates, origin, under⟩, first⟩

/-- The call is the first visit that is not admissible: the entry without a key comes later. -/
example (call entry : Origin) :
    Document.convert { statements :=
      [.define "a" (.inline (.list {} [.atom {} .null, .secret {} (.call call "f" [])])) {},
        .define "b" (.block [{ origin := entry }]) {}] }
      = .error { cause := .unsupported "function call `f`", origin := call,
                 under := [.key "a", .index 1] } := rfl

end LayeredConfig
