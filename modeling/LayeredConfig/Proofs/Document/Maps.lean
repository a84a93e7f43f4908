import LayeredConfig.Proofs.Document.Conversion
import LayeredConfig.Proofs.Value.Fields

/-!
# The maps of a converted document

A map keeps its declaration order just if something that is written directly in it spreads:
`Value.Gathers` says so of one map, and `Expr.Becomes` and `Document.Becomes` of all maps at once,
by relating what is written to what it becomes. They know neither depths nor errors.

In the configuration of a source nothing spreads at any depth, so it is a plain value
(`Expr.isPlain_of_convert`), and none of its entries is lost when its fields are told
(`Document.convert_maps`).
-/

namespace LayeredConfig

/-- No map with spreads stands in a value at any depth. -/
inductive Value.IsPlain : Value → Prop where
  | scalar (s : Scalar) : IsPlain (.scalar s)
  | list {items : List Value} (all : ∀ v ∈ items, IsPlain v) : IsPlain (.list items)
  | map {fields : Fields} (all : ∀ f ∈ fields, IsPlain f.2) : IsPlain (.map fields)
  | reference (r : Reference) : IsPlain (.reference r)
  | secret {inner : Value} (inside : IsPlain inner) : IsPlain (.secret inner)

/-- The map that entries make: with spreads, and then it has just these entries in their order,
or plain, and then it has their keys, each with its last value. -/
inductive Value.Gathers (spreads : Prop) (entries : List (Entry Value)) : Value → Prop where
  | ordered (some : spreads) : Gathers spreads entries (.ordered entries)
  | plain (none : ¬ spreads) : Gathers spreads entries (.map (keyedFields entries))

/-! ### What becomes of what is written -/

mutual
/-- The value that an expression becomes. -/
inductive Expr.Becomes : Expr → Value → Prop where
  | atom (origin : Origin) (a : Atom) : Expr.Becomes (.atom origin a) (a.value origin)
  | map {origin : Origin} {raw : List (RawEntry Expr)} {v : Value} (made : RawMap.Becomes raw v) :
      Expr.Becomes (.map origin raw) v
  | list {origin : Origin} {items : List Expr} {values : List Value}
      (parts : List.Forall₂ Expr.Becomes items values) :
      Expr.Becomes (.list origin items) (.list values)
  | secret {origin : Origin} {inner : Expr} {v : Value} (part : Expr.Becomes inner v) :
      Expr.Becomes (.secret origin inner) (.secret v)

/-- The value that the entries of a map become: a map with spreads just if one of them spreads. -/
inductive RawMap.Becomes : List (RawEntry Expr) → Value → Prop where
  | gather {raw : List (RawEntry Expr)} {entries : List (Entry Value)} {v : Value}
      (parts : List.Forall₂ RawEntry.Becomes raw entries)
      (whole : v.Gathers (∃ e ∈ raw, e.Contributes) entries) : RawMap.Becomes raw v

/-- The entry that an entry becomes: a spread, without a key, just if it spreads. -/
inductive RawEntry.Becomes : RawEntry Expr → Entry Value → Prop where
  | spread {e : RawEntry Expr} {x : Expr} {v : Value} (contributes : e.Contributes)
      (filled : e.value = some x) (part : Expr.Becomes x v) :
      RawEntry.Becomes e { key := none, value := v, origin := e.origin }
  | field {e : RawEntry Expr} {key : String} {x : Expr} {v : Value} (own : ¬ e.Contributes)
      (keyed : e.key = some key) (filled : e.value = some x) (part : Expr.Becomes x v) :
      RawEntry.Becomes e { key := some key, value := v, origin := e.origin }
end

/-- The entry of the root that a statement becomes. -/
inductive Statement.Becomes : Statement → Entry Value → Prop where
  | inline {name : String} {e : Expr} {origin : Origin} {v : Value} (part : e.Becomes v) :
      Statement.Becomes (.define name (.inline e) origin)
        { key := some name, value := v, origin }
  | block {name : String} {raw : List (RawEntry Expr)} {origin : Origin} {v : Value}
      (made : RawMap.Becomes raw v) :
      Statement.Becomes (.define name (.block raw) origin) { key := some name, value := v, origin }
  | spread {e : Expr} {origin : Origin} {v : Value} (part : e.Becomes v) :
      Statement.Becomes (.spread e origin) { key := none, value := v, origin }

def Statement.IsSpread (s : Statement) : Prop := ∃ e origin, s = .spread e origin

/-- The root that a document becomes: source declarations are no part of it, and it is a map with
spreads just if there is a spread statement. -/
def Document.Becomes (d : Document) (root : Value) : Prop :=
  ∃ entries, List.Forall₂ Statement.Becomes
      (d.statements.filter fun s => s.source?.isNone) entries ∧
    root.Gathers (∃ s ∈ d.statements, s.IsSpread) entries

/-- What a source declaration declares: its entries convert to a map that is plain as it stands
and at every depth. It has the keys of the entries, each once and at its first place, and under
a key what the last entry with it becomes. -/
structure SourceStatement.Declares (s : SourceStatement) (declared : DeclaredSource) : Prop where
  «alias» : declared.alias = s.alias
  providerType : declared.providerType = s.providerType
  origin : declared.origin = s.origin
  whole : ∃ entries, convertEntries true 1 s.config = .ok entries ∧
    Value.ofEntries entries = .map declared.config
  plain : (Value.map declared.config).IsPlain
  keys : Assoc.keys declared.config = (s.config.filterMap RawEntry.key).eraseDups
  last : ∀ front e back key, s.config = front ++ e :: back → e.key = some key →
    (∀ later ∈ back, later.key ≠ some key) →
    ∃ x v, e.value = some x ∧ x.Becomes v ∧ Assoc.get? declared.config key = some v

/-! ### Maps -/

theorem RawEntry.Becomes.isSpread_iff {e : RawEntry Expr} {entry : Entry Value}
    (becomes : e.Becomes entry) : entry.isSpread = true ↔ e.Contributes := by
  cases becomes with
  | spread contributes filled part => exact ⟨fun _ => contributes, fun _ => rfl⟩
  | field own keyed filled part => exact ⟨nofun, fun contributes => absurd contributes own⟩

/-- Entries are gathered as a map with spreads just if there is one among what they come from. -/
theorem Value.gathers_ofEntries {α : Type} {spreads : α → Prop} {written : List α}
    {entries : List (Entry Value)}
    (parts : List.Forall₂ (fun a entry => entry.isSpread = true ↔ spreads a) written entries) :
    (ofEntries entries).Gathers (∃ a ∈ written, spreads a) entries := by
  have same : entries.any Entry.isSpread = true ↔ ∃ a ∈ written, spreads a := by
    induction parts with
    | nil => simp
    | cons one _ ih => simp [one, ih]
  rw [ofEntries]
  split
  · rename_i some
    exact .ordered (same.mp some)
  · rename_i none
    exact .plain (mt same.mpr none)

section Converting

variable {inConfig : Bool} {depth : Nat}

theorem RawEntry.becomes_of_convert {e : RawEntry Expr} {entry : Entry Value}
    (parts : ∀ x, e.value = some x → ∀ v, x.convert inConfig depth = .ok v → x.Becomes v)
    (converted : convertEntry inConfig depth e = .ok entry) : e.Becomes entry := by
  obtain ⟨⟨one, -, keyed⟩, x, v, filled, value, rfl⟩ := convertEntry_eq_ok_iff.mp converted
  have part := parts x filled v value
  by_cases contributes : e.Contributes
  · have keyless : e.key = none := by
      rcases contributes with marked | ⟨keyless, -⟩
      · exact one marked
      · exact keyless
    rw [keyless]
    exact .spread contributes filled part
  · obtain ⟨key, named, -⟩ := keyed contributes
    rw [named]
    exact .field contributes named filled part

theorem RawMap.becomes_of_convert {raw : List (RawEntry Expr)} {entries : List (Entry Value)}
    (parts : ∀ e ∈ raw, ∀ x, e.value = some x →
      ∀ v, x.convert inConfig depth = .ok v → x.Becomes v)
    (converted : convertEntries inConfig depth raw = .ok entries) :
    List.Forall₂ RawEntry.Becomes raw entries ∧ RawMap.Becomes raw (Value.ofEntries entries) := by
  have become : List.Forall₂ RawEntry.Becomes raw entries :=
    ((List.forall₂_and_left _ _).mpr ⟨parts, convertEntries_eq_ok_iff.mp converted⟩).imp
      fun _ _ ⟨part, one⟩ => RawEntry.becomes_of_convert part one
  exact ⟨become, .gather become (Value.gathers_ofEntries (become.imp fun _ _ b => b.isSpread_iff))⟩

/-- An expression that converts becomes the value that it converts to. -/
theorem Expr.becomes_of_convert (e : Expr) : ∀ inConfig depth v,
    e.convert inConfig depth = .ok v → e.Becomes v := by
  induction e using Expr.induct with
  | atom origin a =>
    intro inConfig depth v converted
    obtain ⟨-, rfl⟩ := convert_atom_eq_ok_iff.mp converted
    exact .atom origin a
  | map origin raw ih =>
    intro inConfig depth v converted
    obtain ⟨-, entries, parts, rfl⟩ := convert_map_eq_ok_iff.mp converted
    have part : ∀ e ∈ raw, ∀ x, e.value = some x →
        ∀ v, x.convert inConfig (depth + 1) = .ok v → x.Becomes v :=
      fun e inside x filled => ih e inside x filled inConfig (depth + 1)
    exact .map (RawMap.becomes_of_convert part parts).2
  | list origin items ih =>
    intro inConfig depth v converted
    obtain ⟨-, values, parts, rfl⟩ := convert_list_eq_ok_iff.mp converted
    have each := (List.forall₂_and_left _ _).mpr ⟨ih, (convertItems_eq_ok_iff 0).mp parts⟩
    exact .list (each.imp fun _ _ ⟨part, one⟩ => part inConfig (depth + 1) _ one)
  | secret origin inner ih =>
    intro inConfig depth v converted
    obtain ⟨-, u, part, rfl⟩ := convert_secret_eq_ok_iff.mp converted
    exact .secret (ih inConfig (depth + 1) u part)
  | call origin name args =>
    intro inConfig depth v converted
    exact absurd converted (convert_call_ne_ok name args)

end Converting

/-! ### Configurations of sources -/

theorem Atom.isPlain_value (a : Atom) (origin : Origin) : (a.value origin).IsPlain := by
  have dotted : ∀ segments text, (dottedValue origin segments text).IsPlain := by
    intro segments text
    rw [dottedValue]
    split
    · exact .reference _
    · exact .scalar _
  cases a with
  | string s => exact dotted _ s
  | path segments => exact dotted segments _
  | reference «alias» path => exact .reference _
  | integer i => exact .scalar _
  | float x => exact .scalar _
  | bool b => exact .scalar _
  | null => exact .scalar _
  | identifier name => exact .scalar _

/-- Each element of the second of two related lists comes from one of the first. -/
theorem exists_of_mem_forall₂ {α β : Type} {R : α → β → Prop} {l : List α} {u : List β} {b : β}
    (related : List.Forall₂ R l u) (inside : b ∈ u) : ∃ a ∈ l, R a b := by
  induction related with
  | nil => cases inside
  | cons one _ ih =>
    rcases List.mem_cons.mp inside with rfl | later
    · exact ⟨_, List.mem_cons_self, one⟩
    · obtain ⟨a, among, other⟩ := ih later
      exact ⟨a, List.mem_cons_of_mem _ among, other⟩

section Sources

variable {depth : Nat}

/-- In the configuration of a source no entry spreads, so the map is plain as it stands. -/
theorem isPlain_of_convertEntries {raw : List (RawEntry Expr)} {entries : List (Entry Value)}
    (parts : ∀ e ∈ raw, ∀ x, e.value = some x →
      ∀ v, x.convert true depth = .ok v → v.IsPlain)
    (converted : convertEntries true depth raw = .ok entries) :
    Value.ofEntries entries = .map (Value.keyedFields entries) ∧
      (Value.map (Value.keyedFields entries)).IsPlain := by
  have all : ∀ entry ∈ entries, entry.isSpread = false ∧ entry.value.IsPlain := by
    intro entry among
    obtain ⟨e, inside, one⟩ := exists_of_mem_forall₂ (convertEntries_eq_ok_iff.mp converted) among
    obtain ⟨⟨-, outside, keyed⟩, x, v, filled, value, rfl⟩ := convertEntry_eq_ok_iff.mp one
    obtain ⟨key, named, -⟩ := keyed fun contributes => nomatch outside contributes
    refine ⟨?_, parts e inside x filled v value⟩
    rw [named]
    rfl
  refine ⟨Value.ofEntries_of_keyed fun entry among => (all entry among).1, .map ?_⟩
  intro f inside
  obtain ⟨entry, among, made⟩ := List.mem_filterMap.mp (Assoc.mem_of_mem_ofList inside)
  obtain ⟨key, -, rfl⟩ := Option.map_eq_some_iff.mp made
  exact (all entry among).2

/-- In the configuration of a source every expression becomes a plain value. -/
theorem Expr.isPlain_of_convert (e : Expr) : ∀ depth v,
    e.convert true depth = .ok v → v.IsPlain := by
  induction e using Expr.induct with
  | atom origin a =>
    intro depth v converted
    obtain ⟨-, rfl⟩ := convert_atom_eq_ok_iff.mp converted
    exact a.isPlain_value origin
  | map origin raw ih =>
    intro depth v converted
    obtain ⟨-, entries, parts, rfl⟩ := convert_map_eq_ok_iff.mp converted
    obtain ⟨whole, plain⟩ := isPlain_of_convertEntries
      (fun e inside x filled => ih e inside x filled (depth + 1)) parts
    rw [whole]
    exact plain
  | list origin items ih =>
    intro depth v converted
    obtain ⟨-, values, parts, rfl⟩ := convert_list_eq_ok_iff.mp converted
    refine .list fun u among => ?_
    obtain ⟨e, inside, one⟩ := exists_of_mem_forall₂ ((convertItems_eq_ok_iff 0).mp parts) among
    exact ih e inside (depth + 1) u one
  | secret origin inner ih =>
    intro depth v converted
    obtain ⟨-, u, part, rfl⟩ := convert_secret_eq_ok_iff.mp converted
    exact .secret (ih (depth + 1) u part)
  | call origin name args =>
    intro depth v converted
    exact absurd converted (convert_call_ne_ok name args)

theorem filterMap_key_eq {raw : List (RawEntry Expr)} {entries : List (Entry Value)}
    (each : List.Forall₂ (fun e entry => entry.key = e.key) raw entries) :
    entries.filterMap Entry.key = raw.filterMap RawEntry.key := by
  induction each with
  | nil => rfl
  | cons same _ ih => rw [List.filterMap_cons, List.filterMap_cons, same, ih]

/-- Under a key stands what the last entry with it becomes. -/
theorem get?_pairs_of_last {raw : List (RawEntry Expr)} {entries : List (Entry Value)}
    (each : List.Forall₂ (fun e entry => entry.key = e.key ∧ e.Becomes entry) raw entries)
    {front back : List (RawEntry Expr)} {e : RawEntry Expr} {key : String}
    (whole : raw = front ++ e :: back) (keyed : e.key = some key)
    (last : ∀ later ∈ back, later.key ≠ some key) :
    ∃ x v, e.value = some x ∧ x.Becomes v ∧
      Assoc.get? (Value.pairs entries).reverse key = some v := by
  induction front generalizing raw entries with
  | nil =>
    subst whole
    obtain ⟨entry, rest, ⟨same, becomes⟩, others, rfl⟩ := List.forall₂_cons_left_iff.mp each
    have none : Assoc.get? (Value.pairs rest).reverse key = none := by
      rw [Assoc.get?_eq_none_iff, Assoc.keys, List.map_reverse, List.mem_reverse, ← Assoc.keys,
        Value.keys_pairs, filterMap_key_eq (others.imp fun _ _ both => both.1)]
      intro again
      obtain ⟨later, inside, same⟩ := List.mem_filterMap.mp again
      exact last later inside same
    cases becomes with
    | spread contributes filled part =>
      rw [keyed] at same
      cases same
    | @field _ key' x v own named filled part =>
      cases keyed.symm.trans named
      refine ⟨x, v, filled, part, ?_⟩
      rw [Value.pairs_cons, List.reverse_append, Assoc.get?_append, none, Option.none_or]
      exact if_pos rfl
  | cons first front ih =>
    subst whole
    obtain ⟨entry, rest, -, others, rfl⟩ := List.forall₂_cons_left_iff.mp each
    obtain ⟨x, v, filled, part, found⟩ := ih others rfl
    refine ⟨x, v, filled, part, ?_⟩
    rw [Value.pairs_cons, List.reverse_append, Assoc.get?_append, found, Option.some_or]

/-- A source declaration that converts declares what it becomes. -/
theorem SourceStatement.declares_of_convert {s : SourceStatement} {declared : DeclaredSource}
    (converted : s.convert = .ok declared) : s.Declares declared := by
  rw [SourceStatement.convert] at converted
  split at converted
  · cases converted
  · simp only [Converting.bind_eq_ok_iff, Converting.pure_eq_ok_iff, under_eq_ok_iff] at converted
    obtain ⟨entries, parts, rfl⟩ := converted
    obtain ⟨whole, plain⟩ := isPlain_of_convertEntries
      (fun _ _ x _ v value => x.isPlain_of_convert 1 v value) parts
    have each : List.Forall₂ (fun e entry => entry.key = e.key ∧ e.Becomes entry)
        s.config entries := by
      refine (convertEntries_eq_ok_iff.mp parts).imp fun e entry one => ⟨?_, ?_⟩
      · obtain ⟨-, x, v, -, -, rfl⟩ := convertEntry_eq_ok_iff.mp one
        rfl
      · exact RawEntry.becomes_of_convert (fun x _ v => x.becomes_of_convert true 1 v) one
    exact
      { «alias» := rfl
        providerType := rfl
        origin := rfl
        whole := ⟨entries, parts, whole⟩
        plain := plain
        keys := by
          rw [← filterMap_key_eq (each.imp fun _ _ both => both.1), ← Value.keys_pairs]
          exact Assoc.keys_ofList _
        last := by
          intro front e back key here keyed last
          obtain ⟨x, v, filled, part, found⟩ := get?_pairs_of_last each here keyed last
          exact ⟨x, v, filled, part, (Assoc.get?_ofList _ key).trans found⟩ }

end Sources

/-! ### Documents -/

theorem Body.becomes_of_convert {name : String} {body : Body} {origin : Origin} {v : Value}
    (converted : body.convert = .ok v) :
    Statement.Becomes (.define name body origin) { key := some name, value := v, origin } := by
  cases body with
  | inline e => exact .inline (e.becomes_of_convert false 1 v converted)
  | block raw =>
    simp only [convert, Converting.bind_eq_ok_iff, Converting.pure_eq_ok_iff] at converted
    obtain ⟨entries, parts, rfl⟩ := converted
    exact .block (RawMap.becomes_of_convert
      (fun _ _ x _ v value => x.becomes_of_convert false 1 v value) parts).2

theorem becomes_of_convertSection {name : String} {body : Body} {origin : Origin}
    {entry : Entry Value} (converted : convertSection name body origin = .ok entry) :
    Statement.Becomes (.define name body origin) entry := by
  rw [convertSection] at converted
  split at converted
  · cases converted
  · simp only [Converting.bind_eq_ok_iff, Converting.pure_eq_ok_iff, under_eq_ok_iff] at converted
    obtain ⟨v, value, rfl⟩ := converted
    exact Body.becomes_of_convert value

/-- Statements that convert become entries of the root and declarations, each in their order. -/
theorem becomes_of_convertStatements {statements : List Statement} {entries : List (Entry Value)}
    {sources : List DeclaredSource}
    (converted : convertStatements statements = .ok (entries, sources)) :
    List.Forall₂ Statement.Becomes (statements.filter fun s => s.source?.isNone) entries ∧
      List.Forall₂ SourceStatement.Declares (statements.filterMap Statement.source?) sources := by
  induction statements generalizing entries sources with
  | nil =>
    cases converted
    exact ⟨.nil, .nil⟩
  | cons s rest ih =>
    cases s with
    | define name body origin =>
      simp only [convertStatements, Converting.bind_eq_ok_iff, Converting.pure_eq_ok_iff,
        Prod.exists, Prod.mk.injEq] at converted
      obtain ⟨entry, one, others, declared, below, rfl, rfl⟩ := converted
      obtain ⟨become, declare⟩ := ih below
      exact ⟨.cons (becomes_of_convertSection one) become, declare⟩
    | source s =>
      simp only [convertStatements, Converting.bind_eq_ok_iff, Converting.pure_eq_ok_iff,
        Prod.exists, Prod.mk.injEq] at converted
      obtain ⟨declaration, one, others, declared, below, rfl, rfl⟩ := converted
      obtain ⟨become, declare⟩ := ih below
      exact ⟨become, .cons (SourceStatement.declares_of_convert one) declare⟩
    | spread e origin =>
      simp only [convertStatements, Converting.bind_eq_ok_iff, Converting.pure_eq_ok_iff,
        Prod.exists, Prod.mk.injEq] at converted
      obtain ⟨v, one, others, declared, below, rfl, rfl⟩ := converted
      obtain ⟨become, declare⟩ := ih below
      exact ⟨.cons (.spread (e.becomes_of_convert false 1 v one)) become, declare⟩

theorem Statement.Becomes.isSpread_iff {s : Statement} {entry : Entry Value}
    (becomes : s.Becomes entry) : entry.isSpread = true ↔ s.IsSpread := by
  cases becomes with
  | inline part => exact ⟨nofun, nofun⟩
  | block made => exact ⟨nofun, nofun⟩
  | spread part => exact ⟨fun _ => ⟨_, _, rfl⟩, fun _ => rfl⟩

theorem exists_isSpread_iff (statements : List Statement) :
    (∃ s ∈ statements.filter fun s => s.source?.isNone, s.IsSpread)
      ↔ ∃ s ∈ statements, s.IsSpread := by
  constructor
  · rintro ⟨s, inside, spreads⟩
    exact ⟨s, (List.mem_filter.mp inside).1, spreads⟩
  · rintro ⟨s, inside, e, origin, rfl⟩
    exact ⟨_, List.mem_filter.mpr ⟨inside, rfl⟩, e, origin, rfl⟩

/-- In a document that converts, the entries of every source make a map that is plain as it
stands and at every depth, with their keys and the last value of each, so that nothing is left
out of the configuration. And in the root a map has spreads just if the block, the inline map or
the document that it comes from has a spread directly in it; then it has one entry for each that
is written there, in the same order. -/
theorem Document.convert_maps (d : Document) (c : Converted) (converts : d.convert = .ok c) :
    List.Forall₂ SourceStatement.Declares d.sources c.sources ∧ d.Becomes c.root := by
  rw [convert, Converting.bind_eq_ok_iff] at converts
  obtain ⟨⟨entries, sources⟩, statements, same⟩ := converts
  cases same
  obtain ⟨become, declare⟩ := becomes_of_convertStatements statements
  refine ⟨declare, entries, become, ?_⟩
  rw [← exists_isSpread_iff]
  exact Value.gathers_ofEntries (become.imp fun _ _ b => b.isSpread_iff)

/-- A source that writes a key again, and spreads at the top and in a section. -/
def network : Document where
  statements :=
    [.spread (.atom {} (.reference "base" ["*"])) {},
      .source
        { «alias» := "net", providerType := "terraform"
          config :=
            [{ key := some "region", value := some (.atom {} (.string "var.region")) },
              { key := some "tags"
                value := some (.map {}
                  [{ key := some "team"
                     value := some (.secret {} (.atom {} (.string "core"))) }]) },
              { key := some "region", value := some (.atom {} (.string "eu")) }] },
      .define "zones" (.inline (.list {}
        [.map {} [{ value := some (.atom {} (.reference "net" ["zones", "*"])) },
          { key := some "x", value := some (.atom {} .null) }]])) {}]

/-- What the network becomes. -/
def networked : Converted where
  root := .ordered
    [{ key := none, value := .reference { «alias» := "base", path := ["*"] } },
      { key := some "zones"
        value := .list [.ordered
          [{ key := none, value := .reference { «alias» := "net", path := ["zones", "*"] } },
            { key := some "x", value := .null }]] }]
  sources :=
    [{ «alias» := "net", providerType := "terraform"
       config :=
        [("region", .string "eu"), ("tags", .map [("team", .secret (.string "core"))])] }]

theorem Document.convert_maps_network :
    network.convert = .ok networked ∧
      List.Forall₂ SourceStatement.Declares network.sources networked.sources ∧
      network.Becomes networked.root := by
  have converts : network.convert = .ok networked := rfl
  exact ⟨converts, network.convert_maps networked converts⟩

end LayeredConfig
