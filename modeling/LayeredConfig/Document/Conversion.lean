import LayeredConfig.Document.Basic
import LayeredConfig.Document.ConversionError

/-!
From documents to values.

Conversion evaluates nothing: references stay references and secrets stay
secret. It decides once whether a map keeps its declaration order, and it refuses
what is no value: the first wrong node in document order is reported, with the
keys and indices that lead to it. The configuration of a source is a plain map
at every depth, so spreads are refused there.
-/

namespace LayeredConfig

/-- The alias behind dotted names that begin with `var`. -/
def variablesAlias : String := "var"

/-- The path of a dotted name `var.a.b`, if it is one: `var` and then segments, at least
one, none of them empty. -/
def variablePath? : List String → Option (List String)
  | [] => none
  | first :: path =>
    if first = variablesAlias ∧ path ≠ [] ∧ path.all (· ≠ "") then some path else none

/-- The value of a dotted name: a reference to a variable, or else the text itself. -/
def dottedValue (origin : Origin) (segments : List String) (text : String) : Value :=
  match variablePath? segments with
  | some path => .reference { «alias» := variablesAlias, path, origin }
  | none => .string text

def Atom.value (origin : Origin) : Atom → Value
  | .string s => dottedValue origin (Text.segments s) s
  | .integer i => .scalar (.integer i)
  | .float x => .scalar (.float x)
  | .bool b => .scalar (.bool b)
  | .null => .null
  | .identifier name => .string name
  | .path segments => dottedValue origin segments (Text.dotted segments)
  | .reference «alias» segments => .reference { «alias», path := segments, origin }

/-- What conversion yields, or why it fails. -/
abbrev Converting := Except ConversionError

/-- Refuse a node that is nested too deeply. -/
def checkDepth (depth : Nat) (origin : Origin) : Converting Unit :=
  if maxDepth < depth then throw { cause := .tooDeep, origin } else pure ()

/-- Report an error as seen from a container. -/
def under {α : Type} (step : ConversionStep) (r : Converting α) : Converting α :=
  r.mapError (ConversionError.inStep step)

mutual
/-- The value of an expression at a depth, inside or outside the configuration of a
source. -/
def Expr.convert (inConfig : Bool) (depth : Nat) : Expr → Converting Value
  | .atom origin a => do
    checkDepth depth origin
    return a.value origin
  | .map origin entries => do
    checkDepth depth origin
    return Value.ofEntries (← convertEntries inConfig (depth + 1) entries)
  | .list origin items => do
    checkDepth depth origin
    return .list (← convertItems inConfig (depth + 1) 0 items)
  | .secret origin inner => do
    checkDepth depth origin
    return .secret (← inner.convert inConfig (depth + 1))
  | .call origin name _ => do
    checkDepth depth origin
    throw { cause := .unsupported s!"function call `{name}`", origin }

/-- Items of a list, counted from `index`. -/
def convertItems (inConfig : Bool) (depth : Nat) :
    (index : Nat) → List Expr → Converting (List Value)
  | _, [] => return []
  | index, e :: rest => do
    let v ← under (.index index) (e.convert inConfig depth)
    return v :: (← convertItems inConfig depth (index + 1) rest)

/-- Entries of a map whose values are at a depth. -/
def convertEntries (inConfig : Bool) (depth : Nat) :
    List (RawEntry Expr) → Converting (List (Entry Value))
  | [] => return []
  | e :: rest => do
    let entry ← convertEntry inConfig depth e
    return entry :: (← convertEntries inConfig depth rest)

/-- One entry. An entry marked as a spread has no key, a spread is outside source
configurations, every other entry has a key that is not empty, and each has a value; the
first of these that fails is reported. -/
def convertEntry (inConfig : Bool) (depth : Nat) : RawEntry Expr → Converting (Entry Value)
  | ⟨key, value, spread, origin⟩ =>
    match spread, key with
    | true, some key => throw { cause := .keyedSpread key, origin }
    | _, _ =>
      if RawEntry.isSpread ⟨key, value, spread, origin⟩ then
        if inConfig then throw { cause := .spreadNotAllowed, origin }
        else do return { key := none, value := ← convertValue inConfig depth origin value, origin }
      else
        match key with
        | none => throw { cause := .emptyKey, origin }
        | some key =>
          if key = "" then throw { cause := .emptyKey, origin }
          else do
            let v ← under (.key key) (convertValue inConfig depth origin value)
            return { key := some key, value := v, origin }

/-- The value of an entry with a given origin. -/
def convertValue (inConfig : Bool) (depth : Nat) (origin : Origin) :
    Option Expr → Converting Value
  | none => throw { cause := .missingExpression, origin }
  | some e => e.convert inConfig depth
end

/-- A source declaration. Its configuration may still hold references. -/
structure DeclaredSource where
  «alias» : String
  providerType : String
  config : Fields
  origin : Origin := {}

/-- What a document declares. -/
structure Converted where
  /-- Its sections and spreads as one map. -/
  root : Value
  sources : List DeclaredSource

def Body.convert : Body → Converting Value
  | .inline e => e.convert false 1
  | .block entries => return Value.ofEntries (← convertEntries false 1 entries)

/-- A section as an entry of the root. -/
def convertSection (name : String) (body : Body) (origin : Origin) :
    Converting (Entry Value) :=
  if name = "" then throw { cause := .emptyKey, origin }
  else do return { key := some name, value := ← under (.key name) body.convert, origin }

def SourceStatement.convert (s : SourceStatement) : Converting DeclaredSource :=
  if s.alias = "" then throw { cause := .emptyKey, origin := s.origin }
  else do
    let entries ← under (.key s.alias) (convertEntries true 1 s.config)
    return { «alias» := s.alias, providerType := s.providerType,
             config := Value.keyedFields entries, origin := s.origin }

/-- Entries of the root and source declarations, each in document order. -/
def convertStatements :
    List Statement → Converting (List (Entry Value) × List DeclaredSource)
  | [] => return ([], [])
  | .define name body origin :: rest => do
    let entry ← convertSection name body origin
    let (entries, sources) ← convertStatements rest
    return (entry :: entries, sources)
  | .spread e origin :: rest => do
    let value ← e.convert false 1
    let (entries, sources) ← convertStatements rest
    return ({ key := none, value, origin } :: entries, sources)
  | .source s :: rest => do
    let declaration ← s.convert
    let (entries, sources) ← convertStatements rest
    return (entries, declaration :: sources)

/-- A document as a root value and its source declarations. -/
def Document.convert (d : Document) : Converting Converted := do
  let (entries, sources) ← convertStatements d.statements
  return { root := Value.ofEntries entries, sources }

end LayeredConfig
