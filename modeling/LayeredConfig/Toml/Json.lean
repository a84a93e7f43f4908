import LayeredConfig.Json.Basic
import LayeredConfig.Toml.Reader

/-!
TOML data as JSON data.

Tables inside other data have their keys sorted. A float that is no finite number
becomes null, and a date-time an object with its text under a key of its own.
-/

namespace LayeredConfig.Toml

/-- The key that marks the text of a date-time. -/
def datetimeKey : String := "$__toml_private_datetime"

/-- A date-time as the fields of an object. -/
def Datetime.fields (d : Datetime) : List (String × Json) := [(datetimeKey, .string d.text)]

namespace Value

mutual
def toJson : Value → Json
  | .string s => .string s
  | .integer i => .integer i.toInt
  | .float x => .ofBinary64 x
  | .bool b => .bool b
  | .datetime d => .object d.fields
  | .array items => .array (itemsJson items)
  | .table entries => .object (Assoc.sorted (entriesJson entries))

def itemsJson : List Value → List Json
  | [] => []
  | v :: rest => v.toJson :: itemsJson rest

def entriesJson : List (String × Value) → List (String × Json)
  | [] => []
  | (key, v) :: rest => (key, v.toJson) :: entriesJson rest
end

/-- The fields of a table in document order; a date-time counts as a table of its text. -/
def fields? : Value → Option (Assoc Json)
  | .table entries => some (entriesJson entries)
  | .datetime d => some d.fields
  | _ => none

end Value

end LayeredConfig.Toml
