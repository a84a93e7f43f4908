import LayeredConfig.Value.Basic

/-!
Expressions and the entries of maps, as a parser delivers them.

Every node knows its origin. An entry is what the parser found between two line
ends, which need not make sense: the key or the value may be missing, and
conversion decides which entries are wrong.
-/

namespace LayeredConfig

/-- An expression without parts. -/
inductive Atom where
  | string (s : String)
  | integer (i : Int64)
  | float (x : Binary64)
  | bool (b : Bool)
  | null
  /-- A bare word. -/
  | identifier (name : String)
  /-- Bare words with points between them. -/
  | path (segments : List String)
  | reference («alias» : String) (path : List String)
  deriving DecidableEq, Repr

/-- An entry of a map over expressions of type `ε`. -/
structure RawEntry (ε : Type) where
  key : Option String := none
  value : Option ε := none
  /-- Written with the spread operator. -/
  spread : Bool := false
  origin : Origin := {}

inductive Expr where
  | atom (origin : Origin) (a : Atom)
  | map (origin : Origin) (entries : List (RawEntry Expr))
  | list (origin : Origin) (items : List Expr)
  /-- An expression marked `@secret`. -/
  | secret (origin : Origin) (inner : Expr)
  | call (origin : Origin) (name : String) (args : List Expr)

namespace Expr

instance : Inhabited Expr := ⟨.atom {} .null⟩

def origin : Expr → Origin
  | .atom origin _ => origin
  | .map origin _ => origin
  | .list origin _ => origin
  | .secret origin _ => origin
  | .call origin _ _ => origin

/-- Whether an expression is a reference with a wildcard; none if it is no reference. -/
def wildcard? : Expr → Option Bool
  | .atom origin (.reference «alias» path) => some (Reference.hasWildcard { «alias», path, origin })
  | _ => none

/-- The sort of an expression, as messages name it. -/
def noun : Expr → String
  | .atom _ (.string _) => "string"
  | .atom _ (.integer _) => "number"
  | .atom _ (.float _) => "number"
  | .atom _ (.bool _) => "boolean"
  | .atom _ .null => "null"
  | .atom _ (.identifier _) => "identifier"
  | .atom _ (.path _) => "path"
  | .atom _ (.reference _ _) => "reference"
  | .map .. => "map"
  | .list .. => "list"
  | .secret .. => "marked expression"
  | .call .. => "function call"

end Expr

/-- Whether an entry contributes the fields of its value: it is written as a spread, or
has no key and points at everything below a path. -/
def RawEntry.isSpread (e : RawEntry Expr) : Bool :=
  e.spread || (e.key.isNone && (e.value.bind Expr.wildcard?).getD false)

end LayeredConfig
