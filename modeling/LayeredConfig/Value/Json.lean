import LayeredConfig.Json.Basic
import LayeredConfig.Value.Basic

/-!
Values and JSON data.

`Value.toJson` writes a value out: a secret shows what it holds, so redact
first where that matters. `Value.ofJson` takes JSON data in. An integer that 64
bits with a sign cannot hold becomes the nearest double, the one loss on the way
in; a double that is not finite becomes null on the way out.
-/

namespace LayeredConfig

/-- The integers of 64 bits with a sign. -/
def inSigned64 (i : Int) : Bool := Int64.minValue.toInt ≤ i ∧ i ≤ Int64.maxValue.toInt

/-- The double nearest to an integer. -/
def Binary64.ofInt (i : Int) : Binary64 := ofRatio (i < 0) i.natAbs 1

def Scalar.toJson : Scalar → Json
  | .null => .null
  | .bool b => .bool b
  | .integer i => .integer i.toInt
  | .float x => .ofBinary64 x
  | .string s => .string s

namespace Value

mutual
/-- A value as JSON data. A map with spreads is the array of its entries, a reference is
its written form. -/
def toJson : Value → Json
  | .scalar s => s.toJson
  | .list items => .array (itemsJson items)
  | .map fields => .object (fieldsJson fields)
  | .ordered entries => .array (entriesJson entries)
  | .reference r => .string r.text
  | .secret inner => toJson inner

def itemsJson : List Value → List Json
  | [] => []
  | v :: rest => toJson v :: itemsJson rest

def fieldsJson : List (String × Value) → List (String × Json)
  | [] => []
  | (key, v) :: rest => (key, toJson v) :: fieldsJson rest

def entriesJson : List (Entry Value) → List Json
  | [] => []
  | ⟨some key, v, _⟩ :: rest =>
    .object [("key", .string key), ("value", toJson v)] :: entriesJson rest
  | ⟨none, v, _⟩ :: rest =>
    .object [("spread", .bool true), ("value", toJson v)] :: entriesJson rest
end

mutual
/-- JSON data as a value. -/
def ofJson : Json → Value
  | .null => .scalar .null
  | .bool b => .scalar (.bool b)
  | .integer i =>
    if inSigned64 i then .scalar (.integer (Int64.ofInt i)) else .scalar (.float (.ofInt i))
  | .float x _ => .scalar (.float x)
  | .string s => .scalar (.string s)
  | .array items => .list (ofItems items)
  | .object fields => .map (ofFields fields)

def ofItems : List Json → List Value
  | [] => []
  | j :: rest => ofJson j :: ofItems rest

def ofFields : List (String × Json) → List (String × Value)
  | [] => []
  | (key, j) :: rest => (key, ofJson j) :: ofFields rest
end

end Value

end LayeredConfig
