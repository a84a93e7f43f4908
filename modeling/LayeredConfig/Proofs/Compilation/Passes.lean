import LayeredConfig.Compilation.Compile
import LayeredConfig.Proofs.Compilation.Declarations
import LayeredConfig.Proofs.Resolution.Substitution

/-!
Compilation in two passes.

What documents mean (`meaning`) is said without clock, cache or schedule: their sources are
declared in load order, their roots are evaluated against all of them, and the results are
merged. A part of a compilation realises a part of this meaning (`Compiling.Realises`), and
realisation composes along both passes (`Compiling.Realises.bind`); what carries over from one
part to the next is that registry and resolver agree with the declarations so far (`Agrees`).

Each part is one lemma: `Compiling.realises_resolveFields` and `Compiling.realises_resolve` for
what is resolved, `Compiling.realises_register` for a declaration, `Compiling.realises_sources` for
the first pass, and `Compiling.realises_layers` for the second. `compile_eq_meaning` puts them
together.
-/

namespace LayeredConfig

/-! ### What documents mean -/

/-- Before any declaration there are only the variables. -/
def Answers.ofVariables (fields : Assoc Json) : Answers :=
  Function.update (fun _ => none) variablesAlias
    (some (.ok fun path => ((Provider.ofVariables fields).fetch [] path).verdict none))

/-- The documents converted, and what aliases stand for when their sources are declared, in
load order, after those that are there. -/
def declared (kinds : Kinds) (lenient : Bool) (answers : Answers) (documents : List Document) :
    Option (List Converted × Answers) := do
  let converted ← documents.mapM (·.convert.toOption)
  let answers ← (converted.flatMap (·.sources)).foldlM (Answers.declare kinds lenient) answers
  return (converted, answers)

/-- The fields that the root of a document comes to. -/
def Converted.layer (answers : Answers) (lenient : Bool) (c : Converted) : Option Fields :=
  (c.root.eval answers lenient).bind Value.asMap?

/-- The merged values of documents, whose roots are evaluated when all sources are known. -/
def meaning (kinds : Kinds) (options : CompileOptions) (documents : List Document) :
    Option Fields := do
  let (converted, answers) ← declared kinds options.allowMissing (.ofVariables options.variables)
    documents
  return mergeLayers (← converted.mapM (·.layer answers options.allowMissing))

theorem declared_cons (kinds : Kinds) (lenient : Bool) (answers : Answers) (d : Document)
    (rest : List Document) :
    declared kinds lenient answers (d :: rest) = do
      let c ← d.convert.toOption
      let answers ← c.sources.foldlM (Answers.declare kinds lenient) answers
      let (converted, answers) ← declared kinds lenient answers rest
      return (c :: converted, answers) := by
  unfold declared
  rw [List.mapM_cons]
  cases d.convert.toOption with
  | none => rfl
  | some c =>
    simp only [Option.bind_eq_bind, Option.bind_some, Option.pure_def, Option.bind_assoc]
    cases (rest.mapM (·.convert.toOption)) with
    | none =>
      cases c.sources.foldlM (Answers.declare kinds lenient) answers <;> rfl
    | some converted =>
      simp only [Option.bind_some, List.flatMap_cons, List.foldlM_append, Option.bind_eq_bind,
        Option.bind_assoc]

/-! ### References in documents -/

/-- The references in what a document declares. -/
def Converted.references (c : Converted) : List Reference :=
  c.root.references ++ c.sources.flatMap fun s => Value.referencesOfFields s.config

/-- The references in a document, if it can be converted. -/
def Document.references (d : Document) : List Reference :=
  match d.convert with
  | .ok c => c.references
  | .error _ => []

theorem Document.references_of_convert {d : Document} {c : Converted}
    (converts : d.convert = .ok c) : d.references = c.references := by
  rw [Document.references, converts]

/-- The root of a document is a map. -/
theorem Document.root_of_convert {d : Document} {c : Converted} (converts : d.convert = .ok c) :
    ∃ entries, c.root = Value.ofEntries entries := by
  unfold Document.convert at converts
  cases converted : convertStatements d.statements with
  | error e => rw [converted] at converts; cases converts
  | ok p =>
    rw [converted] at converts
    cases converts
    exact ⟨p.1, rfl⟩

/-- A map comes to a plain map. -/
theorem Value.asMap?_of_eval_ofEntries {entries : List (Entry Value)} {answers : Answers}
    {lenient : Bool} {v : Value} (evaluated : (ofEntries entries).eval answers lenient = some v) :
    v.asMap? = some (v.asMap?.getD []) := by
  unfold ofEntries at evaluated
  split at evaluated
  · rw [Value.eval] at evaluated
    obtain ⟨_, -, composed⟩ := Option.bind_eq_some_iff.mp evaluated
    obtain ⟨fields, -, rfl⟩ := Option.map_eq_some_iff.mp composed
    rfl
  · rw [Value.eval] at evaluated
    obtain ⟨fields, -, rfl⟩ := Option.map_eq_some_iff.mp evaluated
    rfl

/-! ### Parts of a compilation -/

namespace Compiling

variable {α β γ δ : Type}

/-- What a part of a compilation does to a world. -/
def exec (x : Compiling α) (w : World) : Option (Except CompileError α) × World := x.run.run.run w

theorem exec_bind (x : Compiling α) (f : α → Compiling β) (w : World) :
    (x >>= f).exec w =
      match x.exec w with
      | (some (.ok a), w') => (f a).exec w'
      | (some (.error e), w') => (some (.error e), w')
      | (none, w') => (none, w') := by
  unfold exec
  simp only [ExceptT.run_bind, OptionT.run_bind, Option.elimM, StateT.run_bind]
  rcases x.run.run.run w with ⟨_ | _ | _, w'⟩ <;> rfl

theorem exec_fields {resolve : World → Option (Except ResolveError Value) × World} {w w' : World}
    {x : Except ResolveError Value} (file : String) (ran : resolve w = (some x, w')) :
    (fields file resolve).exec w
      = (some ((x.mapError (.resolution file)).map (·.asMap?.getD [])), w') := by
  show ((resolve w).1.map _, (resolve w).2) = _
  rw [ran]
  rfl

theorem exec_register {s : DeclaredSource} {config : Fields} {w : World} {registry : Registry}
    {result : Except SetupError Bool}
    (registered : w.registry.register s.alias s.providerType config = (result, registry)) :
    (register s config).exec w
      = (some ((result.mapError .setup).map fun _ => ()), { w with registry }) := by
  show (some (((w.registry.register _ _ _).1.mapError CompileError.setup).map _),
    { w with registry := (w.registry.register _ _ _).2 }) = _
  rw [registered]

theorem compile_of_exec {types : Assoc ProviderType} {options : CompileOptions}
    {documents : List Document} {w w' : World} {result : Option (Except CompileError Fields)}
    (ran : (Compiling.values documents).exec (w.prepare types options) = (result, w')) :
    compile types options documents w
      = (result.map (·.map fun values => { values, warnings := w'.trace.warnings }), w') := by
  unfold exec at ran
  simp only [compile, ran]

/-- A part of a compilation comes to what a meaning says, in that results are related by `P` to
what is meant, unless it is interrupted. -/
def Realises (x : Compiling α) (w : World) (meant : Option β) (P : β → α → World → Prop) : Prop :=
  ∃ result w', x.exec w = (some result, w') ∧
    match result with
    | .ok a => ∃ b, meant = some b ∧ P b a w'
    | .error _ => meant = none ∨ w'.interruption?.isSome = true

variable {w : World} {P : β → α → World → Prop}

theorem Realises.pure {a : α} {b : β} (holds : P b a w) :
    Realises (Pure.pure a) w (some b) P :=
  ⟨.ok a, w, rfl, b, rfl, holds⟩

/-- Two parts realise two meanings if the second does wherever the first may end. -/
theorem Realises.bind {x : Compiling α} {f : α → Compiling γ} {meant : Option β}
    {next : β → Option δ} {Q : δ → γ → World → Prop} (first : Realises x w meant P)
    (second : ∀ b a w', P b a w' → Realises (f a) w' (next b) Q) :
    Realises (x >>= f) w (meant.bind next) Q := by
  obtain ⟨result, w', ran, outcome⟩ := first
  unfold Realises
  rw [exec_bind, ran]
  cases result with
  | error e =>
    refine ⟨.error e, w', rfl, outcome.imp_left ?_⟩
    intro none
    rw [none]
    rfl
  | ok a =>
    obtain ⟨b, rfl, holds⟩ := outcome
    exact second b a w' holds

/-- A result that needs no world realises itself. -/
theorem Realises.ofExcept {r : Except CompileError α} {meant : Option α}
    (same : r.toOption = meant) {P : α → α → World → Prop} (holds : ∀ a, r = .ok a → P a a w) :
    Realises (ofExcept r) w meant P := by
  refine ⟨r, w, rfl, ?_⟩
  cases r with
  | ok a => exact ⟨a, same.symm, holds a rfl⟩
  | error e => exact .inl same.symm

/-! ### What carries over -/

/-- Nothing is under way, and registry and resolver agree with what aliases stand for. -/
structure Agrees (types : Assoc ProviderType) (rules : Policy) (answers : Answers) (w : World) :
    Prop where
  idle : w.IsIdle
  rooted : ∃ g : Registry, g.types = types ∧ g.Follows rules.fetchTimeout answers ∧
    Rooted g rules Reference.IsPlain 0 w

variable {types : Assoc ProviderType} {rules : Policy} {answers : Answers} {kinds : Kinds}

/-- A new compilation knows nothing but the variables. -/
theorem agrees_prepare (w : World) (types : Assoc ProviderType) (options : CompileOptions) :
    Agrees types options.toPolicy (.ofVariables options.variables) (w.prepare types options) := by
  refine ⟨⟨rfl, rfl, rfl, rfl⟩, .only types variablesAlias (.ofVariables options.variables), rfl,
    ?_, .of_fresh (w.prepare types options) rfl _⟩
  apply Registry.follows_only
  intro trace path
  unfold Call.verdict
  cases options.fetchTimeout <;> rfl

/-- Resolving fields in the name of a file comes to what they stand for. -/
theorem realises_resolveFields (agrees : Agrees types rules answers w) (file : String)
    {config : Fields} (plain : ∀ r ∈ Value.referencesOfFields config, r.IsPlain) :
    Realises (fields file (·.resolveFields config)) w
      (Value.evalFields answers rules.allowMissing config)
      (fun b a w' => b = a ∧ Agrees types rules answers w') := by
  obtain ⟨idle, g, known, follows, rooted⟩ := agrees
  have policy := rooted.policy
  subst policy
  obtain ⟨x, w', ran, value, idle', rooted'⟩ :=
    World.resolveFields_eval follows (fun r h => h) idle rooted plain
  refine ⟨_, w', exec_fields file ran, ?_⟩
  cases x with
  | error e =>
    refine value.imp (fun none => ?_) (·.2)
    exact Option.map_eq_none_iff.mp none.symm
  | ok v =>
    rcases value with value | ⟨none, -⟩
    · obtain ⟨b, evaluated, rfl⟩ := Option.map_eq_some_iff.mp value.symm
      exact ⟨b, evaluated, rfl, idle', g, known, follows, rooted'⟩
    · cases none

/-- Resolving the root of a document comes to its layer. -/
theorem realises_resolve (agrees : Agrees types rules answers w) (file : String) {c : Converted}
    (isMap : ∃ entries, c.root = Value.ofEntries entries)
    (plain : ∀ r ∈ c.root.references, r.IsPlain) :
    Realises (fields file (·.resolve c.root)) w (c.layer answers rules.allowMissing)
      (fun b a w' => b = a ∧ Agrees types rules answers w') := by
  obtain ⟨idle, g, known, follows, rooted⟩ := agrees
  have policy := rooted.policy
  subst policy
  obtain ⟨x, w', ran, value, idle', rooted'⟩ :=
    World.resolve_eval follows (fun r h => h) idle rooted plain
  refine ⟨_, w', exec_fields file ran, ?_⟩
  cases x with
  | error e =>
    refine value.imp (fun none => ?_) (·.2)
    rw [Converted.layer, ← none]
    rfl
  | ok v =>
    rcases value with value | ⟨none, -⟩
    · obtain ⟨entries, root⟩ := isMap
      have evaluated : c.root.eval answers w.resolver.policy.allowMissing = some v := value.symm
      rw [root] at evaluated
      refine ⟨v.asMap?.getD [], ?_, rfl, idle', g, known, follows, rooted'⟩
      rw [Converted.layer, root, evaluated]
      exact Value.asMap?_of_eval_ofEntries evaluated
    · cases none

/-- Registering a source declares what its type makes of it. -/
theorem realises_register (describes : kinds.Describes rules.fetchTimeout types)
    (agrees : Agrees types rules answers w) (s : DeclaredSource) (config : Fields) :
    Realises (register s config) w
      (do
        let kind ← kinds s.providerType
        return if (answers s.alias).isSome then answers
          else Function.update answers s.alias (some (kind s.alias config)))
      (fun answers' _ w' => Agrees types rules answers' w') := by
  obtain ⟨idle, g, rfl, follows, rooted⟩ := agrees
  have registered := Registry.register_eq w.registry s.alias s.providerType config
  simp only [Assoc.contains, rooted.registry.types] at registered
  cases found : Assoc.get? g.types s.providerType with
  | none =>
    simp only [found, Option.isSome_none, Bool.not_false, if_true] at registered
    refine ⟨_, _, exec_register registered, .inl ?_⟩
    rw [describes.unknown _ found]
    rfl
  | some t =>
    obtain ⟨kind, isKind, described⟩ := describes.known _ _ found
    have sameBound : Assoc.get? w.registry.bindings s.alias = none ↔
        Assoc.get? g.bindings s.alias = none := rooted.registry.get?_eq_none_iff
    rw [isKind, follows.isSome_iff, Assoc.contains]
    cases bound : Assoc.get? g.bindings s.alias with
    | some b =>
      have taken : (Assoc.get? w.registry.bindings s.alias).isSome = true := by
        rw [Option.isSome_iff_ne_none, ne_eq, sameBound, bound]
        simp
      simp only [found, taken, Option.isSome_some, Bool.not_true, Bool.false_eq_true, if_false,
        if_true] at registered
      exact ⟨_, _, exec_register registered, answers, rfl, idle, g, rfl, follows, rooted⟩
    | none =>
      simp only [found, sameBound.mpr bound, Option.isSome_some, Option.isSome_none, Bool.not_true,
        Bool.false_eq_true, if_false] at registered
      refine ⟨_, _, exec_register registered, _, rfl,
        ⟨idle.builders, idle.outcomes, idle.queue, idle.permits⟩,
        g.declare s.alias s.providerType config, rfl, follows.declare found described, ?_⟩
      refine ⟨rooted.policy, rooted.registry.declare bound, by simp, by simp, ?_⟩
      intro key o kept
      obtain ⟨r, plain, same, produces⟩ := rooted.cache key o kept
      exact ⟨r, plain, same, produces.mono (Registry.extends_declare bound)⟩

/-! ### The passes -/

theorem realises_declareSource (describes : kinds.Describes rules.fetchTimeout types)
    (agrees : Agrees types rules answers w) (file : String) {s : DeclaredSource}
    (plain : ∀ r ∈ Value.referencesOfFields s.config, r.IsPlain) :
    Realises (declareSource file s) w (answers.declare kinds rules.allowMissing s)
      (fun answers' _ w' => Agrees types rules answers' w') := by
  apply (realises_resolveFields agrees file plain).bind
  rintro _ config w' ⟨rfl, agrees'⟩
  exact realises_register describes agrees' s _

/-- Sources declared one by one. -/
theorem realises_sources (describes : kinds.Describes rules.fetchTimeout types)
    (agrees : Agrees types rules answers w) (file : String) {sources : List DeclaredSource}
    (plain : ∀ s ∈ sources, ∀ r ∈ Value.referencesOfFields s.config, r.IsPlain) :
    Realises (sources.forM (declareSource file)) w
      (sources.foldlM (Answers.declare kinds rules.allowMissing) answers)
      (fun answers' _ w' => Agrees types rules answers' w') := by
  induction sources generalizing answers w with
  | nil => exact .pure agrees
  | cons s rest ih =>
    show Realises (declareSource file s >>= fun _ => rest.forM (declareSource file)) w _ _
    rw [List.foldlM_cons]
    apply (realises_declareSource describes agrees file (plain s List.mem_cons_self)).bind
    intro answers' _ w' agrees'
    exact ih agrees' fun s hs => plain s (List.mem_cons_of_mem _ hs)

/-- The first pass converts the documents and declares their sources. -/
theorem realises_roots (describes : kinds.Describes rules.fetchTimeout types)
    (agrees : Agrees types rules answers w) {documents : List Document}
    (plain : ∀ d ∈ documents, ∀ r ∈ d.references, r.IsPlain) :
    Realises (roots documents) w (declared kinds rules.allowMissing answers documents)
      (fun b a w' => a.map (·.2) = b.1.map (·.root) ∧
        (∀ c ∈ b.1, ∃ d ∈ documents, d.convert = .ok c) ∧ Agrees types rules b.2 w') := by
  induction documents generalizing answers w with
  | nil => exact .pure ⟨rfl, by simp, agrees⟩
  | cons d rest ih =>
    rw [declared_cons, roots]
    refine (Realises.ofExcept (P := fun b a w' => b = a ∧ d.convert = .ok a ∧
      Agrees types rules answers w') ?_ ?_).bind ?_
    · cases d.convert <;> rfl
    · intro c converts
      refine ⟨rfl, ?_, agrees⟩
      cases converted : d.convert with
      | error e => rw [converted] at converts; cases converts
      | ok c' => rw [converted] at converts; cases converts; rfl
    rintro _ c w' ⟨rfl, converts, agrees'⟩
    have here := plain d List.mem_cons_self
    rw [Document.references_of_convert converts] at here
    refine (realises_sources describes agrees' d.file fun s hs r hr => here r ?_).bind ?_
    · exact List.mem_append_right _ (List.mem_flatMap.mpr ⟨s, hs, hr⟩)
    intro answers' _ w' agrees'
    apply (ih agrees' fun d hd => plain d (List.mem_cons_of_mem _ hd)).bind
    rintro ⟨converted, answers'⟩ rest' w' ⟨sameRoots, fromRest, agrees'⟩
    refine .pure ⟨by simp [sameRoots], ?_, agrees'⟩
    intro c' hc
    rcases List.mem_cons.mp hc with rfl | hc
    · exact ⟨d, List.mem_cons_self, converts⟩
    · obtain ⟨d', hd, converts'⟩ := fromRest c' hc
      exact ⟨d', List.mem_cons_of_mem _ hd, converts'⟩

/-- The second pass resolves the roots, one after the other. -/
theorem realises_layers (agrees : Agrees types rules answers w) {roots : List (String × Value)}
    {converted : List Converted} (sameRoots : roots.map (·.2) = converted.map (·.root))
    (isMap : ∀ c ∈ converted, ∃ entries, c.root = Value.ofEntries entries)
    (plain : ∀ c ∈ converted, ∀ r ∈ c.root.references, r.IsPlain) :
    Realises (layers roots) w (converted.mapM (·.layer answers rules.allowMissing))
      (fun b a _ => b = a) := by
  induction converted generalizing roots w with
  | nil =>
    cases roots with
    | nil => exact .pure rfl
    | cons p roots => cases sameRoots
  | cons c converted ih =>
    cases roots with
    | nil => cases sameRoots
    | cons p roots =>
      obtain ⟨file, root⟩ := p
      obtain ⟨rfl, others⟩ := List.cons.inj sameRoots
      rw [layers, List.mapM_cons]
      refine (realises_resolve agrees file (isMap c List.mem_cons_self)
        (plain c List.mem_cons_self)).bind ?_
      rintro _ layer w' ⟨rfl, agrees'⟩
      refine (ih agrees' others (fun c hc => isMap c (List.mem_cons_of_mem _ hc))
        fun c hc => plain c (List.mem_cons_of_mem _ hc)).bind ?_
      rintro _ rest w' rfl
      exact .pure rfl

/-- Both passes together. -/
theorem realises_values (describes : kinds.Describes rules.fetchTimeout types)
    (agrees : Agrees types rules answers w) {documents : List Document}
    (plain : ∀ d ∈ documents, ∀ r ∈ d.references, r.IsPlain) :
    Realises (values documents) w
      (do
        let (converted, answers) ← declared kinds rules.allowMissing answers documents
        return mergeLayers (← converted.mapM (·.layer answers rules.allowMissing)))
      (fun b a _ => b = a) := by
  apply (realises_roots describes agrees plain).bind
  rintro ⟨converted, answers'⟩ rs w' ⟨sameRoots, from', agrees'⟩
  refine (realises_layers agrees' sameRoots ?_ ?_).bind ?_
  · intro c hc
    obtain ⟨d, -, converts⟩ := from' c hc
    exact Document.root_of_convert converts
  · intro c hc r hr
    obtain ⟨d, hd, converts⟩ := from' c hc
    apply plain d hd r
    rw [Document.references_of_convert converts]
    exact List.mem_append_left _ hr
  · rintro _ rest w' rfl
    exact .pure rfl

end Compiling

/-- Compiling documents comes to what they mean, whatever the schedule, if nothing has
interrupted it: without an error exactly if they mean something, and then with the values
that they mean. -/
theorem compile_eq_meaning (types : Assoc ProviderType) (options : CompileOptions)
    (documents : List Document) (w : World) (kinds : Kinds)
    (describes : kinds.Describes options.fetchTimeout types)
    (plain : ∀ d ∈ documents, ∀ r ∈ d.references, r.IsPlain)
    (uninterrupted : (compile types options documents w).2.interruption? = none) :
    ∃ result, (compile types options documents w).1 = some result ∧
      result.toOption.map Snapshot.values = meaning kinds options documents := by
  obtain ⟨result, w', ran, outcome⟩ := Compiling.realises_values describes
    (Compiling.agrees_prepare w types options) plain
  rw [Compiling.compile_of_exec ran] at uninterrupted ⊢
  refine ⟨_, rfl, ?_⟩
  cases result with
  | ok a =>
    obtain ⟨b, same, rfl⟩ := outcome
    exact same.symm
  | error e =>
    rcases outcome with none | interrupted
    · exact none.symm
    · rw [uninterrupted] at interrupted
      cases interrupted

/-- A document with a source, and another that uses it too. -/
def sharedSource : List Document :=
  [{ statements :=
      [.source { «alias» := "app", providerType := "echo", config := [] },
        .define "db" (.inline (.atom {} (.reference "app" ["db", "host"]))) {}] },
    { statements :=
      [.define "web" (.inline (.atom {} (.reference "app" ["web", "port"]))) {}] }]

theorem compile_eq_meaning_echo :
    ∃ result, (compile [("echo", .echo 5)] {} sharedSource {}).1 = some result ∧
      result.toOption.map Snapshot.values
        = some [("db", .string "db.host"), ("web", .string "web.port")] := by
  have plain : ∀ d ∈ sharedSource, ∀ r ∈ d.references, r.IsPlain := by
    intro d hd r hr
    simp only [sharedSource, List.mem_cons, List.not_mem_nil, or_false] at hd
    rcases hd with rfl | rfl
    · obtain rfl : r = { «alias» := "app", path := ["db", "host"] } := List.mem_singleton.mp hr
      exact ⟨by decide, by decide⟩
    · obtain rfl : r = { «alias» := "app", path := ["web", "port"] } := List.mem_singleton.mp hr
      exact ⟨by decide, by decide⟩
  exact compile_eq_meaning [("echo", .echo 5)] {} sharedSource {} _ (ProviderType.describes_echo 5)
    plain (by decide +kernel)

end LayeredConfig
