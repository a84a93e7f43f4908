import LayeredConfig.Assoc
import LayeredConfig.Number.Binary64
import LayeredConfig.Source.Origin
import LayeredConfig.Text.Segments

/-!
Configuration values.

A value is a tree of scalars, lists and maps, with two marks that other formats
do not have: a *reference* points at data that a provider will supply, and a
*secret* hides what it holds from output. A map whose entries include spreads
keeps them in declaration order until it is composed; every other map is plain,
a list of fields with distinct keys.
-/

namespace LayeredConfig

/-- An atomic value. -/
inductive Scalar where
  | null
  | bool (b : Bool)
  | integer (i : Int64)
  | float (x : Binary64)
  | string (s : String)
  deriving DecidableEq, Repr

/-- A pointer `alias:path` to data of a provider. -/
structure Reference where
  «alias» : String
  path : List String
  origin : Origin := {}
  deriving DecidableEq, Repr

/-- An entry of a map with spreads. Without a key it is a spread, which contributes all
fields of its value. -/
structure Entry (α : Type) where
  key : Option String
  value : α
  origin : Origin := {}
  deriving Repr

/-- A configuration value. -/
inductive Value where
  | scalar (s : Scalar)
  | list (items : List Value)
  /-- A plain map. -/
  | map (fields : List (String × Value))
  /-- A map with spreads among its entries. -/
  | ordered (entries : List (Entry Value))
  | reference (r : Reference)
  | secret (inner : Value)

/-- The fields of a plain map. -/
abbrev Fields := Assoc Value

namespace Entry

variable {α : Type}

def isSpread (e : Entry α) : Bool := e.key.isNone

end Entry

namespace Reference

/-- The segment that stands for every key below it. -/
def wildcard : String := "*"

def hasWildcard (r : Reference) : Bool := r.path.contains wildcard

/-- What a provider is asked for: the segments before the first wildcard. -/
def requestPath (r : Reference) : List String := r.path.takeWhile (· ≠ wildcard)

/-- What is looked up in every entry of the fetched value: the segments after the first
wildcard. -/
def entryPath (r : Reference) : List String := (r.path.dropWhile (· ≠ wildcard)).drop 1

/-- The written form: alias, colon, and the segments with points between them. -/
def text (r : Reference) : String := r.alias ++ ":" ++ Text.dotted r.path

end Reference

namespace Value

instance : Inhabited Value := ⟨.scalar .null⟩

abbrev null : Value := .scalar .null

abbrev string (s : String) : Value := .scalar (.string s)

def isNull : Value → Bool
  | .scalar .null => true
  | _ => false

def asString? : Value → Option String
  | .scalar (.string s) => some s
  | _ => none

def asList? : Value → Option (List Value)
  | .list items => some items
  | _ => none

/-- The fields of a plain map. -/
def asMap? : Value → Option Fields
  | .map fields => some fields
  | _ => none

/-- The fields of the keyed entries: a repeated key keeps its first place and its last
value. -/
def keyedFields (entries : List (Entry Value)) : Fields :=
  Assoc.ofList (entries.filterMap fun e => e.key.map (·, e.value))

/-- The map that a list of entries makes: it keeps declaration order if there is a
spread among them, and is plain otherwise. -/
def ofEntries (entries : List (Entry Value)) : Value :=
  if entries.any Entry.isSpread then .ordered entries else .map (keyedFields entries)

/-! ### Kinds -/

/-- The sort of a value, as messages name it. -/
inductive Kind where
  | null
  | boolean
  | number
  | string
  | list
  | map
  | reference
  | secret
  deriving DecidableEq, Repr

def Kind.word : Kind → String
  | .null => "null"
  | .boolean => "boolean"
  | .number => "number"
  | .string => "string"
  | .list => "list"
  | .map => "map"
  | .reference => "reference"
  | .secret => "secret"

def kind : Value → Kind
  | .scalar .null => .null
  | .scalar (.bool _) => .boolean
  | .scalar (.integer _) => .number
  | .scalar (.float _) => .number
  | .scalar (.string _) => .string
  | .list _ => .list
  | .map _ => .map
  | .ordered _ => .map
  | .reference _ => .reference
  | .secret _ => .secret

/-! ### References in a tree -/

mutual
/-- Whether a reference is left anywhere in a value. -/
def hasReferences : Value → Bool
  | .scalar _ => false
  | .list items => anyReferences items
  | .map fields => fieldReferences fields
  | .ordered entries => entryReferences entries
  | .reference _ => true
  | .secret inner => hasReferences inner

def anyReferences : List Value → Bool
  | [] => false
  | v :: rest => hasReferences v || anyReferences rest

def fieldReferences : List (String × Value) → Bool
  | [] => false
  | (_, v) :: rest => hasReferences v || fieldReferences rest

def entryReferences : List (Entry Value) → Bool
  | [] => false
  | ⟨_, v, _⟩ :: rest => hasReferences v || entryReferences rest
end

end Value

end LayeredConfig
