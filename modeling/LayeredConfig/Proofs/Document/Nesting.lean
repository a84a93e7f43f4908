import LayeredConfig.Proofs.Document.Conversion

/-!
# Block sections and inline sections

A section is written as a block of entries or as an expression that is a map of them. The
entries of a block are converted at the depth of the section itself, those of a map one level
deeper. So the two agree except where an expression in the block is nested exactly as deep as a
document may be: the block takes it, and the map is refused there.

What is found one level deeper is the same (`Expr.convert_of_deeper`), and so is what is visited
(`Expr.visits_succ`); only the depth of a visit tells the two apart.
-/

namespace LayeredConfig

/-! ### One level deeper -/

/-- A subject one level deeper. -/
def Subject.deeper : Subject → Subject
  | .expr depth e => .expr (depth + 1) e
  | s => s

/-- A visit one level deeper. -/
def Visit.deeper (v : Visit) : Visit := { v with subject := v.subject.deeper }

theorem map_inStep_map_deeper (step : ConversionStep) (vs : List Visit) :
    (vs.map Visit.deeper).map (Visit.inStep step) = (vs.map (Visit.inStep step)).map .deeper := by
  rw [List.map_map, List.map_map]
  rfl

section Deeper

variable {inConfig : Bool} {depth : Nat}

theorem itemVisits_succ {items : List Expr}
    (parts : ∀ e ∈ items, e.visits inConfig (depth + 1) = (e.visits inConfig depth).map .deeper)
    (index : Nat) :
    itemVisits inConfig (depth + 1) index items
      = (itemVisits inConfig depth index items).map .deeper := by
  induction items generalizing index with
  | nil => rfl
  | cons e items ih =>
    rw [itemVisits, itemVisits, parts e List.mem_cons_self,
      ih fun e' inside => parts e' (List.mem_cons_of_mem _ inside), List.map_append,
      map_inStep_map_deeper]

theorem valueVisits_succ {value : Option Expr} (origin : Origin)
    (part : ∀ x, value = some x →
      x.visits inConfig (depth + 1) = (x.visits inConfig depth).map .deeper) :
    valueVisits inConfig (depth + 1) origin value
      = (valueVisits inConfig depth origin value).map .deeper := by
  cases value with
  | none => rfl
  | some x => exact part x rfl

theorem entriesVisits_succ {entries : List (RawEntry Expr)}
    (parts : ∀ e ∈ entries, ∀ x, e.value = some x →
      x.visits inConfig (depth + 1) = (x.visits inConfig depth).map .deeper) :
    entriesVisits inConfig (depth + 1) entries
      = (entriesVisits inConfig depth entries).map .deeper := by
  induction entries with
  | nil => rfl
  | cons e entries ih =>
    have one : entryVisits inConfig (depth + 1) e
        = (entryVisits inConfig depth e).map .deeper := by
      rw [entryVisits_eq, entryVisits_eq, valueVisits_succ _ (parts e List.mem_cons_self)]
      cases e.step? with
      | none => rfl
      | some step =>
        dsimp only [Option.elim_some]
        rw [map_inStep_map_deeper]
        rfl
    rw [entriesVisits, entriesVisits, one,
      ih fun e' inside => parts e' (List.mem_cons_of_mem _ inside), List.map_append]

/-- One level deeper the same is visited. -/
theorem Expr.visits_succ (e : Expr) : ∀ inConfig depth,
    e.visits inConfig (depth + 1) = (e.visits inConfig depth).map .deeper := by
  induction e using Expr.induct with
  | atom origin a => exact fun _ _ => rfl
  | map origin entries ih =>
    intro inConfig depth
    rw [visits, visits, List.map_cons,
      entriesVisits_succ fun e inside x filled => ih e inside x filled inConfig (depth + 1)]
    rfl
  | list origin items ih =>
    intro inConfig depth
    rw [visits, visits, List.map_cons,
      itemVisits_succ fun e inside => ih e inside inConfig (depth + 1)]
    rfl
  | secret origin inner ih =>
    intro inConfig depth
    rw [visits, visits, List.map_cons, ih]
    rfl
  | call origin name args => exact fun _ _ => rfl

theorem convertEntries_of_deeper {raw : List (RawEntry Expr)} {entries : List (Entry Value)}
    (parts : ∀ e ∈ raw, ∀ x, e.value = some x → ∀ v,
      x.convert inConfig (depth + 1) = .ok v → x.convert inConfig depth = .ok v)
    (converted : convertEntries inConfig (depth + 1) raw = .ok entries) :
    convertEntries inConfig depth raw = .ok entries := by
  rw [convertEntries_eq_ok_iff] at converted ⊢
  refine ((List.forall₂_and_left _ _).mpr ⟨parts, converted⟩).imp ?_
  rintro e entry ⟨part, one⟩
  rw [convertEntry_eq_ok_iff] at one ⊢
  obtain ⟨fine, x, v, filled, value, rfl⟩ := one
  exact ⟨fine, x, v, filled, part x filled v value, rfl⟩

/-- What is converted at some depth is converted to the same at a lesser one. -/
theorem Expr.convert_of_deeper (e : Expr) : ∀ inConfig depth v,
    e.convert inConfig (depth + 1) = .ok v → e.convert inConfig depth = .ok v := by
  induction e using Expr.induct with
  | atom origin a =>
    intro inConfig depth v converted
    rw [convert_atom_eq_ok_iff] at converted ⊢
    exact ⟨Nat.le_of_succ_le converted.1, converted.2⟩
  | map origin entries ih =>
    intro inConfig depth v converted
    rw [convert_map_eq_ok_iff] at converted ⊢
    obtain ⟨shallow, whole, parts, rfl⟩ := converted
    refine ⟨Nat.le_of_succ_le shallow, whole, ?_, rfl⟩
    exact convertEntries_of_deeper (fun e inside x filled => ih e inside x filled inConfig _) parts
  | list origin items ih =>
    intro inConfig depth v converted
    rw [convert_list_eq_ok_iff] at converted ⊢
    obtain ⟨shallow, whole, parts, rfl⟩ := converted
    refine ⟨Nat.le_of_succ_le shallow, whole, ?_, rfl⟩
    rw [convertItems_eq_ok_iff] at parts ⊢
    refine ((List.forall₂_and_left _ _).mpr ⟨ih, parts⟩).imp ?_
    rintro e u ⟨part, one⟩
    exact part inConfig (depth + 1) u one
  | secret origin inner ih =>
    intro inConfig depth v converted
    rw [convert_secret_eq_ok_iff] at converted ⊢
    obtain ⟨shallow, u, part, rfl⟩ := converted
    exact ⟨Nat.le_of_succ_le shallow, u, ih inConfig (depth + 1) u part, rfl⟩
  | call origin name args =>
    intro inConfig depth v converted
    exact absurd converted (convert_call_ne_ok name args)

end Deeper

/-! ### The limit -/

/-- A visit to an expression that is nested exactly as deep as a document may be. -/
def Visit.AtLimit (v : Visit) : Prop := ∃ e, v.subject = .expr maxDepth e

theorem Visit.error?_deeper_of_atLimit {v : Visit} (limit : v.AtLimit) :
    v.deeper.error? = some { cause := .tooDeep, origin := v.origin, under := v.under } := by
  obtain ⟨e, limit⟩ := limit
  have deep : v.deeper.subject.Violates .tooDeep := by
    rw [deeper, limit]
    exact .tooDeep (Nat.lt_succ_self maxDepth)
  rw [error?, deep.fault?]
  rfl

/-- At any other depth one level more makes no difference. -/
theorem Visit.error?_deeper {v : Visit} (other : ¬ v.AtLimit) : v.deeper.error? = v.error? := by
  obtain ⟨subject, origin, under⟩ := v
  cases subject with
  | expr depth e =>
    have off : depth ≠ maxDepth := fun same => other ⟨e, by rw [same]⟩
    have same : maxDepth < depth + 1 ↔ maxDepth < depth := by omega
    simp only [error?, deeper, Subject.deeper, Subject.fault?, same]
  | name text => rfl
  | entry inConfig e => rfl
  | gap => rfl

/-- Of some visits `v` is the first one at the limit, and all before it are admissible. -/
def MeetsLimit (vs : List Visit) (v : Visit) : Prop :=
  v.AtLimit ∧ ∃ before after, vs = before ++ v :: after ∧
    ∀ u ∈ before, u.subject.Admissible ∧ ¬ u.AtLimit

theorem MeetsLimit.cons {u v : Visit} {vs : List Visit} (fine : u.subject.Admissible)
    (other : ¬ u.AtLimit) (meets : MeetsLimit vs v) : MeetsLimit (u :: vs) v := by
  obtain ⟨limit, before, after, rfl, easy⟩ := meets
  refine ⟨limit, u :: before, after, rfl, fun w inside => ?_⟩
  rcases List.mem_cons.mp inside with rfl | earlier
  · exact ⟨fine, other⟩
  · exact easy w earlier

theorem findSome?_map_deeper {vs : List Visit} (free : ∀ v, ¬ MeetsLimit vs v) :
    (vs.map .deeper).findSome? Visit.error? = vs.findSome? Visit.error? := by
  induction vs with
  | nil => rfl
  | cons v vs ih =>
    have other : ¬ v.AtLimit := fun limit => free v ⟨limit, [], vs, rfl, by simp⟩
    rw [List.map_cons, List.findSome?_cons, List.findSome?_cons, Visit.error?_deeper other]
    cases fault : v.error? with
    | some e => rfl
    | none =>
      have fine := Visit.error?_eq_none_iff.mp fault
      exact ih fun w meets => free w (meets.cons fine other)

theorem MeetsLimit.findSome?_map_deeper {vs : List Visit} {v : Visit} (meets : MeetsLimit vs v) :
    (vs.map .deeper).findSome? Visit.error?
      = some { cause := .tooDeep, origin := v.origin, under := v.under } := by
  obtain ⟨limit, before, after, rfl, easy⟩ := meets
  have passed : (before.map .deeper).findSome? Visit.error? = none := by
    rw [List.findSome?_eq_none_iff]
    intro u inside
    obtain ⟨u, earlier, rfl⟩ := List.mem_map.mp inside
    rw [Visit.error?_deeper (easy u earlier).2]
    exact Visit.error?_eq_none_iff.mpr (easy u earlier).1
  rw [List.map_append, List.findSome?_append, passed, Option.none_or, List.map_cons,
    List.findSome?_cons, Visit.error?_deeper_of_atLimit limit]

/-- Where everything is admissible, a visit at the limit is met. -/
theorem exists_meetsLimit {vs : List Visit} {v : Visit} (fine : ∀ u ∈ vs, u.subject.Admissible)
    (inside : v ∈ vs) (limit : v.AtLimit) : ∃ u, MeetsLimit vs u := by
  induction vs with
  | nil => cases inside
  | cons u vs ih =>
    by_cases here : u.AtLimit
    · exact ⟨u, here, [], vs, rfl, by simp⟩
    · rcases List.mem_cons.mp inside with rfl | later
      · exact absurd limit here
      · obtain ⟨w, meets⟩ := ih (fun u' among => fine u' (List.mem_cons_of_mem _ among)) later
        exact ⟨w, meets.cons (fine u List.mem_cons_self) here⟩

/-! ### Sections in documents -/

/-- Statements fail with what is wrong with the first of them that is wrong. -/
theorem failure?_convertStatements_append (front rest : List Statement) :
    failure? (convertStatements (front ++ rest))
      = (failure? (convertStatements front)).or (failure? (convertStatements rest)) := by
  have whole : failure? (convertStatements (front ++ rest)) = _ :=
    reports_statements (front ++ rest)
  have first : failure? (convertStatements front) = _ := reports_statements front
  have others : failure? (convertStatements rest) = _ := reports_statements rest
  rw [whole, first, others, List.flatMap_append, List.findSome?_append]

/-- Statements that convert alike may stand for each other. -/
theorem convertStatements_congr {s s' : Statement} {back : List Statement} (front : List Statement)
    (same : convertStatements (s :: back) = convertStatements (s' :: back)) :
    convertStatements (front ++ s :: back) = convertStatements (front ++ s' :: back) := by
  induction front with
  | nil => exact same
  | cons first front ih =>
    cases first with
    | define name body origin =>
      rw [List.cons_append, List.cons_append, convertStatements, convertStatements, ih]
    | source s =>
      rw [List.cons_append, List.cons_append, convertStatements, convertStatements, ih]
    | spread e origin =>
      rw [List.cons_append, List.cons_append, convertStatements, convertStatements, ih]

/-- Entries that do not come to the limit are converted alike one level deeper. -/
theorem convertEntries_deeper {inConfig : Bool} {depth : Nat} {entries : List (RawEntry Expr)}
    (free : ∀ v, ¬ MeetsLimit (entriesVisits inConfig depth entries) v) :
    convertEntries inConfig (depth + 1) entries = convertEntries inConfig depth entries := by
  have here : failure? (convertEntries inConfig depth entries) = _ :=
    reports_entries fun _ _ x _ => x.reports inConfig depth
  have deeper : failure? (convertEntries inConfig (depth + 1) entries) = _ :=
    reports_entries fun _ _ x _ => x.reports inConfig (depth + 1)
  rw [entriesVisits_succ fun _ _ x _ => x.visits_succ inConfig depth,
    findSome?_map_deeper free, ← here] at deeper
  cases below : convertEntries inConfig (depth + 1) entries with
  | ok converted =>
    exact (convertEntries_of_deeper (fun _ _ x _ => x.convert_of_deeper inConfig depth) below).symm
  | error e =>
    rw [below] at deeper
    exact (failure?_eq_some_iff.mp deeper.symm).symm

theorem MeetsLimit.convertEntries_deeper {inConfig : Bool} {depth : Nat}
    {entries : List (RawEntry Expr)} {v : Visit}
    (meets : MeetsLimit (entriesVisits inConfig depth entries) v) :
    convertEntries inConfig (depth + 1) entries
      = .error { cause := .tooDeep, origin := v.origin, under := v.under } := by
  have deeper : failure? (convertEntries inConfig (depth + 1) entries) = _ :=
    reports_entries fun _ _ x _ => x.reports inConfig (depth + 1)
  rw [entriesVisits_succ fun _ _ x _ => x.visits_succ inConfig depth,
    meets.findSome?_map_deeper] at deeper
  exact failure?_eq_some_iff.mp deeper

theorem Body.convert_inline_map (origin : Origin) (entries : List (RawEntry Expr)) :
    (Body.inline (.map origin entries)).convert
      = convertEntries false 2 entries >>= fun converted =>
          pure (Value.ofEntries converted) := by
  rw [convert, Expr.convert]
  rfl

/-- A statement among others in a document. -/
def Document.around (front back : List Statement) (file : Origin) (s : Statement) : Document :=
  { statements := front ++ s :: back, origin := file }

/-- The conversion of a block section that follows other statements comes to an expression at
the limit, and `v` is its first visit to one. -/
structure ComesTo (front : List Statement) (name : String) (entries : List (RawEntry Expr))
    (v : Visit) : Prop where
  front : ∀ u ∈ front.flatMap Statement.visits, u.subject.Admissible
  named : name ≠ ""
  meets : MeetsLimit (entriesVisits false 1 entries) v

section Sections

variable {front back : List Statement} {name : String} {entries : List (RawEntry Expr)}
  {origin mapOrigin file : Origin}

/-- Statements convert just if all that is visited is admissible. -/
theorem exists_convertStatements_iff {statements : List Statement} :
    (∃ p, convertStatements statements = .ok p) ↔
      ∀ v ∈ statements.flatMap Statement.visits, v.subject.Admissible := by
  have reports : failure? (convertStatements statements) = _ := reports_statements statements
  rw [← failure?_eq_none_iff, reports, List.findSome?_eq_none_iff]
  simp only [Visit.error?_eq_none_iff]

theorem convert_of_not_comesTo (free : ∀ v, ¬ ComesTo front name entries v) :
    (Document.around front back file (.define name (.block entries) origin)).convert
      = (Document.around front back file
          (.define name (.inline (.map mapOrigin entries)) origin)).convert := by
  have same : convertStatements (front ++ .define name (.block entries) origin :: back)
      = convertStatements
          (front ++ .define name (.inline (.map mapOrigin entries)) origin :: back) := by
    cases before : convertStatements front with
    | error e =>
      -- What comes before is refused, whatever follows.
      have refused (rest : List Statement) : convertStatements (front ++ rest) = .error e := by
        rw [← failure?_eq_some_iff, failure?_convertStatements_append, before]
        rfl
      rw [refused, refused]
    | ok p =>
      refine convertStatements_congr front ?_
      rw [convertStatements, convertStatements, convertSection, convertSection]
      by_cases named : name = ""
      · rw [if_pos named, if_pos named]
      · have fine := exists_convertStatements_iff.mp ⟨p, before⟩
        have alike : convertEntries false 2 entries = convertEntries false 1 entries :=
          convertEntries_deeper fun v meets => free v ⟨fine, named, meets⟩
        rw [Body.convert_inline_map, alike, Body.convert]
  rw [Document.convert, Document.convert, Document.around, Document.around, same]

theorem ComesTo.convert_inline {v : Visit} (comes : ComesTo front name entries v) :
    (Document.around front back file
        (.define name (.inline (.map mapOrigin entries)) origin)).convert
      = .error { cause := .tooDeep, origin := v.origin, under := .key name :: v.under } := by
  obtain ⟨p, before⟩ := exists_convertStatements_iff.mpr comes.front
  have here : convertStatements (.define name (.inline (.map mapOrigin entries)) origin :: back)
      = .error { cause := .tooDeep, origin := v.origin, under := .key name :: v.under } := by
    rw [convertStatements, convertSection, if_neg comes.named, Body.convert_inline_map,
      comes.meets.convertEntries_deeper]
    rfl
  have refused : convertStatements
      (front ++ .define name (.inline (.map mapOrigin entries)) origin :: back)
      = .error { cause := .tooDeep, origin := v.origin, under := .key name :: v.under } := by
    rw [← failure?_eq_some_iff, failure?_convertStatements_append, before, here]
    rfl
  rw [Document.convert, Document.around, refused]
  rfl

/-- If the block converts and something in it stands at the limit, the conversion comes to it. -/
theorem exists_comesTo {c : Converted} {v : Visit}
    (converted :
      (Document.around front back file (.define name (.block entries) origin)).convert = .ok c)
    (inside : v ∈ entriesVisits false 1 entries) (limit : v.AtLimit) :
    ∃ u, ComesTo front name entries u := by
  rw [Document.convert, Converting.bind_eq_ok_iff] at converted
  obtain ⟨p, statements, -⟩ := converted
  have fine := exists_convertStatements_iff.mp ⟨p, statements⟩
  rw [Document.around, List.flatMap_append, List.flatMap_cons, Statement.visits,
    Body.visits] at fine
  simp only [List.forall_mem_append, List.forall_mem_cons, List.cons_append] at fine
  obtain ⟨before, named, among, -⟩ := fine
  have parts : ∀ u ∈ entriesVisits false 1 entries, u.subject.Admissible :=
    fun u within => among (u.inStep (.key name)) (List.mem_map_of_mem within)
  obtain ⟨u, meets⟩ := exists_meetsLimit parts inside limit
  exact ⟨u, before, named, meets⟩

end Sections

/-- A document with a block section and the same document with an inline section convert to the
same result, unless the conversion of the block comes to an expression that is nested exactly as
deep as a document may be. Then the inline section is refused there as too deep. So the inline
section converts just if the block converts and nothing in it is nested so deep. -/
theorem Document.block_agrees_inline (front back : List Statement) (file origin mapOrigin : Origin)
    (name : String) (entries : List (RawEntry Expr)) :
    let block := around front back file (.define name (.block entries) origin)
    let inline := around front back file (.define name (.inline (.map mapOrigin entries)) origin)
    ((∀ v, ¬ ComesTo front name entries v) → block.convert = inline.convert) ∧
      (∀ v, ComesTo front name entries v → inline.convert
        = .error { cause := .tooDeep, origin := v.origin, under := .key name :: v.under }) ∧
      ∀ c, inline.convert = .ok c ↔
        block.convert = .ok c ∧ ∀ v ∈ entriesVisits false 1 entries, ¬ v.AtLimit := by
  intro block inline
  have agree : (∀ v, ¬ ComesTo front name entries v) → block.convert = inline.convert :=
    convert_of_not_comesTo
  have refused : ∀ v, ComesTo front name entries v → inline.convert
      = .error { cause := .tooDeep, origin := v.origin, under := .key name :: v.under } :=
    fun v comes => comes.convert_inline
  refine ⟨agree, refused, fun c => ⟨fun converted => ?_, ?_⟩⟩
  · have free : ∀ v, ¬ ComesTo front name entries v := by
      intro v comes
      cases converted.symm.trans (refused v comes)
    have block_converted := (agree free).trans converted
    refine ⟨block_converted, fun v inside limit => ?_⟩
    obtain ⟨u, comes⟩ := exists_comesTo block_converted inside limit
    exact free u comes
  · rintro ⟨converted, shallow⟩
    rw [← agree, converted]
    intro v comes
    obtain ⟨limit, before, after, whole, -⟩ := comes.meets
    exact shallow v (by rw [whole]; simp) limit

/-! ### A block that is too deep for a map -/

/-- An expression under a number of marks. -/
def wrapped (e : Expr) : Nat → Expr
  | 0 => e
  | n + 1 => .secret {} (wrapped e n)

theorem visits_wrapped (e : Expr) (n depth : Nat) (shallow : depth + n ≤ maxDepth) :
    ∃ before, (wrapped e n).visits false depth = before ++ e.visits false (depth + n) ∧
      ∀ u ∈ before, u.subject.Admissible ∧ ¬ u.AtLimit := by
  induction n generalizing depth with
  | zero => exact ⟨[], rfl, by simp⟩
  | succ n ih =>
    obtain ⟨before, inner, easy⟩ := ih (depth + 1) (by omega)
    refine ⟨(wrapped e (n + 1)).visit depth :: before, ?_, fun u inside => ?_⟩
    · rw [wrapped, Expr.visits, inner, List.cons_append, Nat.succ_add_eq_add_succ]
    · rcases List.mem_cons.mp inside with rfl | later
      · refine ⟨⟨by omega, by simp [wrapped, Expr.IsCall]⟩, ?_⟩
        rintro ⟨_, same⟩
        cases same
        omega
      · exact easy u later

/-- A field with an empty list under so many marks that it stands at the limit of a block. -/
def vaultField : RawEntry Expr := { key := some "a", value := some (wrapped (.list {} []) 255) }

/-- A block of that field alone. -/
def vault : List (RawEntry Expr) := [vaultField]

/-- A field that is not nested. -/
def drawer : List (RawEntry Expr) := [{ key := some "a", value := some (.atom {} .null) }]

/-- The visit to the list in the vault. -/
def innermost : Visit := { subject := .expr 256 (.list {} []), origin := {}, under := [.key "a"] }

/-- The field of the vault comes first, and then what is under its key. -/
theorem visits_vault_eq : entriesVisits false 1 vault
    = vaultField.visit false ::
      ((wrapped (.list {} []) 255).visits false 1).map (.inStep (.key "a")) := by
  rw [vault, entriesVisits, entriesVisits, List.append_nil, entryVisits_eq]
  rfl

theorem admissible_vaultField :
    (vaultField.visit false).subject.Admissible ∧ ¬ (vaultField.visit false).AtLimit := by
  have field : ¬ vaultField.Contributes := by simp [vaultField, RawEntry.Contributes]
  refine ⟨⟨fun marked => ?_, fun contributes => absurd contributes field, fun _ => ?_⟩, ?_⟩
  · cases marked
  · exact ⟨"a", rfl, by decide⟩
  · rintro ⟨_, same⟩
    cases same

/-- The list in the vault is visited last, and nothing before it is wrong or at the limit. -/
theorem visits_vault : ∃ before, entriesVisits false 1 vault = before ++ [innermost] ∧
    ∀ u ∈ before, u.subject.Admissible ∧ ¬ u.AtLimit := by
  obtain ⟨before, whole, easy⟩ := visits_wrapped (.list {} []) 255 1 (by decide)
  refine ⟨vaultField.visit false :: before.map (.inStep (.key "a")), ?_, fun u inside => ?_⟩
  · rw [visits_vault_eq, whole, List.map_append]
    rfl
  · rcases List.mem_cons.mp inside with rfl | later
    · exact admissible_vaultField
    · obtain ⟨w, earlier, rfl⟩ := List.mem_map.mp later
      exact easy w earlier

theorem comesTo_vault : ComesTo [] "s" vault innermost := by
  obtain ⟨before, whole, easy⟩ := visits_vault
  exact ⟨nofun, by decide, ⟨_, rfl⟩, before, [], whole, easy⟩

/-- As a block the vault is converted. -/
theorem convert_vault :
    ∃ c, (Document.around [] [] {} (.define "s" (.block vault) {})).convert = .ok c := by
  obtain ⟨before, whole, easy⟩ := visits_vault
  have fine : ∀ u ∈ entriesVisits false 1 vault, u.subject.Admissible := by
    intro u inside
    rw [whole] at inside
    rcases List.mem_append.mp inside with earlier | last
    · exact (easy u earlier).1
    · rw [List.mem_singleton.mp last]
      exact ⟨by decide, by simp [Expr.IsCall]⟩
  have statements : ∃ p, convertStatements [.define "s" (.block vault) {}] = .ok p := by
    rw [exists_convertStatements_iff]
    simp only [List.flatMap_cons, List.flatMap_nil, List.append_nil, Statement.visits, Body.visits,
      List.forall_mem_cons, List.forall_mem_map]
    exact ⟨(by decide : "s" ≠ ""), fun u inside => fine u inside⟩
  obtain ⟨p, converted⟩ := statements
  exact ⟨_, Converting.bind_eq_ok_iff.mpr ⟨p, converted, rfl⟩⟩

theorem Document.block_agrees_inline_vault :
    (ComesTo [] "s" vault innermost ∧
        ∃ c, (around [] [] {} (.define "s" (.block vault) {})).convert = .ok c) ∧
      (around [] [] {} (.define "s" (.inline (.map {} vault)) {})).convert
        = .error { cause := .tooDeep, origin := {}, under := [.key "s", .key "a"] } ∧
      (∀ v, ¬ ComesTo [] "s" drawer v) ∧
      (around [] [] {} (.define "s" (.block drawer) {})).convert
        = (around [] [] {} (.define "s" (.inline (.map {} drawer)) {})).convert := by
  have free : ∀ v, ¬ ComesTo [] "s" drawer v := by
    rintro v ⟨-, -, ⟨e, limit⟩, before, after, whole, -⟩
    have inside : v ∈ entriesVisits false 1 drawer := by rw [whole]; simp
    simp only [drawer, entriesVisits, entryVisits_eq, RawEntry.step?, valueVisits, Expr.visits,
      Expr.visit, List.append_nil, List.mem_cons, List.map_cons, List.map_nil,
      Bool.false_eq_true, if_false, Option.map_some, Option.elim_some, List.not_mem_nil,
      or_false] at inside
    rcases inside with rfl | rfl
    · cases limit
    · cases limit
  exact ⟨⟨comesTo_vault, convert_vault⟩,
    (block_agrees_inline [] [] {} {} {} "s" vault).2.1 innermost comesTo_vault,
    free, (block_agrees_inline [] [] {} {} {} "s" drawer).1 free⟩

end LayeredConfig
