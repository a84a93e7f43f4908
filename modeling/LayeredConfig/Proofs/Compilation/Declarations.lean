import LayeredConfig.Document.Conversion
import LayeredConfig.Proofs.Resolution.Answers

/-!
Declarations of sources.

A declaration binds a free alias and changes nothing else, so whatever a registry could
answer before it can still answer (`Registry.Extends`). What the documents' sources stand
for is a fold over their declarations (`Answers.declare`), and a registry to which they are
declared one by one follows it (`Registry.Follows.declare`).
-/

namespace LayeredConfig

/-! ### What declarations stand for -/

/-- What types of providers make of an alias and a configuration. -/
abbrev Kinds := String → Option (String → Fields → Answer)

/-- Every provider of a type, and every fetch of it, is what alias, configuration and path
settle. -/
def ProviderType.Follows (t : ProviderType) (limit : Option Nat)
    (kind : String → Fields → Answer) : Prop :=
  ∀ trace name config,
    (kind name config).Admits limit ((t.init trace name config).outcome.mapError (.init name))

/-- Which types there are, and what they do. -/
structure Kinds.Describes (kinds : Kinds) (limit : Option Nat) (types : Assoc ProviderType) :
    Prop where
  unknown : ∀ providerType, Assoc.get? types providerType = none → kinds providerType = none
  known : ∀ providerType t, Assoc.get? types providerType = some t →
    ∃ kind, kinds providerType = some kind ∧ t.Follows limit kind

/-- A type of providers that answer every path with the path itself, whatever their
configuration. -/
def ProviderType.echo (delay : Nat) : ProviderType where
  init _ _ _ := { delay, outcome := .ok (.echo delay) }

theorem ProviderType.describes_echo (delay : Nat) :
    Kinds.Describes (fun name => if name = "echo" then
        some fun _ _ => .ok fun path => .ok (.string (Text.dotted path)) else none)
      none [("echo", .echo delay)] := by
  constructor
  · intro name free
    rw [Assoc.get?_cons] at free
    split at free
    · cases free
    · rename_i other
      rw [if_neg (Ne.symm other)]
  · intro name t found
    rw [Assoc.get?_cons] at found
    split at found
    · rename_i same
      cases found
      exact ⟨_, by rw [if_pos same.symm], fun trace name config => ⟨_, rfl, fun _ _ => rfl⟩⟩
    · cases found

/-- The aliases once one more source is declared. Its configuration is evaluated against
those before it, its type has to be known, and an alias that is taken keeps its meaning. -/
def Answers.declare (kinds : Kinds) (lenient : Bool) (answers : Answers) (s : DeclaredSource) :
    Option Answers := do
  let config ← Value.evalFields answers lenient s.config
  let kind ← kinds s.providerType
  return if (answers s.alias).isSome then answers
    else Function.update answers s.alias (some (kind s.alias config))

namespace Registry

variable {g g' : Registry} {name : String} {limit : Option Nat} {answers : Answers}

/-! ### Growing registries -/

/-- A registry in which more aliases may be bound. -/
structure Extends (g g' : Registry) : Prop where
  types : g'.types = g.types
  bindings : ∀ name b, Assoc.get? g.bindings name = some b → Assoc.get? g'.bindings name = some b

theorem MayAnswer.mono (grows : g.Extends g') {result : Except SetupError Provider}
    (answer : g.MayAnswer name result) : g'.MayAnswer name result := by
  cases answer with
  | installed bound => exact .installed (grows.bindings _ _ bound)
  | built bound => exact .built (grows.bindings _ _ bound)
  | unknownType bound unknown =>
    exact .unknownType (grows.bindings _ _ bound) (grows.types ▸ unknown)
  | init bound known trace => exact .init (grows.bindings _ _ bound) (grows.types ▸ known) trace

theorem Produces.mono (grows : g.Extends g') {r : Reference} {o : Outcome}
    (produces : g.Produces limit r o) : g'.Produces limit r o := by
  obtain ⟨p, trace, answer, same⟩ := produces
  exact ⟨p, trace, answer.mono grows, same⟩

/-- Asking for an alias that is bound comes to something. -/
theorem exists_mayAnswer {b : Binding} (bound : Assoc.get? g.bindings name = some b) :
    ∃ result, g.MayAnswer name result := by
  cases b with
  | installed p => exact ⟨_, .installed bound⟩
  | declared providerType config built =>
    cases built with
    | some result => exact ⟨_, .built bound⟩
    | none =>
      cases known : Assoc.get? g.types providerType with
      | none => exact ⟨_, .unknownType bound known⟩
      | some t => exact ⟨_, .init bound known []⟩

/-- The aliases that stand for something are those that are bound. -/
theorem Follows.isSome_iff (follows : g.Follows limit answers) :
    (answers name).isSome = Assoc.contains g.bindings name := by
  unfold Assoc.contains
  cases bound : Assoc.get? g.bindings name with
  | none => rw [follows.unbound _ bound]; rfl
  | some b =>
    obtain ⟨result, answer⟩ := exists_mayAnswer bound
    obtain ⟨_, known, -⟩ := follows.admits _ _ answer
    rw [known]
    rfl

/-! ### One more declaration -/

/-- A provider that is to be built, under an alias that is free. -/
def declare (g : Registry) (name providerType : String) (config : Fields) : Registry :=
  { g with bindings := Assoc.insert g.bindings name (.declared providerType config none) }

variable {providerType : String} {config : Fields}

theorem get?_declare (other : String) :
    Assoc.get? (g.declare name providerType config).bindings other
      = if name = other then some (.declared providerType config none)
        else Assoc.get? g.bindings other :=
  Assoc.get?_insert ..

theorem extends_declare (free : Assoc.get? g.bindings name = none) :
    g.Extends (g.declare name providerType config) := by
  refine ⟨rfl, ?_⟩
  intro other b bound
  rw [get?_declare, if_neg, bound]
  rintro rfl
  rw [free] at bound
  cases bound

/-- Where another registry could be built from one, so it can after the same declaration. -/
theorem Later.declare (later : g.Later g') (free : Assoc.get? g.bindings name = none) :
    (g.declare name providerType config).Later (g'.declare name providerType config) := by
  refine ⟨later.types, ?_⟩
  intro other
  rw [get?_declare, get?_declare]
  by_cases same : name = other
  · rw [if_pos same, if_pos same]
    exact .inl rfl
  · rw [if_neg same, if_neg same]
    rcases later.bindings other with kept | ⟨_, _, _, before, after, answer⟩
    · exact .inl kept
    · exact .inr ⟨_, _, _, before, after, answer.mono (extends_declare free)⟩

/-- What an alias may come to that is bound already. -/
theorem MayAnswer.of_declare {other : String} (different : name ≠ other)
    {result : Except SetupError Provider}
    (answer : (g.declare name providerType config).MayAnswer other result) :
    g.MayAnswer other result := by
  have before : ∀ {b}, Assoc.get? (g.declare name providerType config).bindings other = some b →
      Assoc.get? g.bindings other = some b := by
    intro b bound
    rwa [get?_declare, if_neg different] at bound
  cases answer with
  | installed bound => exact .installed (before bound)
  | built bound => exact .built (before bound)
  | unknownType bound unknown => exact .unknownType (before bound) unknown
  | init bound known trace => exact .init (before bound) known trace

/-- The new alias stands for what its type makes of alias and configuration. -/
theorem Follows.declare (follows : g.Follows limit answers) {t : ProviderType}
    {kind : String → Fields → Answer} (known : Assoc.get? g.types providerType = some t)
    (described : t.Follows limit kind) :
    (g.declare name providerType config).Follows limit
      (Function.update answers name (some (kind name config))) := by
  have new : ∀ {b}, Assoc.get? (g.declare name providerType config).bindings name = some b →
      b = .declared providerType config none := by
    intro b bound
    rw [get?_declare, if_pos rfl] at bound
    exact (Option.some.inj bound).symm
  constructor
  · intro other free
    rw [get?_declare] at free
    split at free
    · cases free
    · rename_i different
      rw [Function.update_of_ne (Ne.symm different), follows.unbound _ free]
  · intro other result answer
    by_cases same : name = other
    · subst same
      refine ⟨kind name config, Function.update_self .., ?_⟩
      cases answer with
      | installed bound => cases new bound
      | built bound => cases new bound
      | unknownType bound unknown =>
        cases new bound
        cases known.symm.trans unknown
      | init bound known' trace =>
        cases new bound
        cases known.symm.trans known'
        exact described trace name config
    · obtain ⟨answer', known', admits⟩ := follows.admits _ _ (answer.of_declare same)
      exact ⟨answer', by rw [Function.update_of_ne (Ne.symm same), known'], admits⟩

/-- Registering declares a free alias if the type is known. -/
theorem register_eq (g : Registry) (name providerType : String) (config : Fields) :
    g.register name providerType config =
      if !Assoc.contains g.types providerType then (.error (.unknownType name providerType), g)
      else if Assoc.contains g.bindings name then (.ok false, g)
      else (.ok true, g.declare name providerType config) := rfl

end Registry

end LayeredConfig
