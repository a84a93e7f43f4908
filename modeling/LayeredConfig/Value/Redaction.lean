import LayeredConfig.Value.Basic

/-!
Hiding secrets in output.
-/

namespace LayeredConfig.Value

/-- What stands in output for a secret. -/
def hidden : Value := .string "<redacted>"

mutual
/-- Replace every secret, with all that it holds. -/
def redact : Value → Value
  | .secret _ => hidden
  | .list items => .list (redactItems items)
  | .map fields => .map (redactFields fields)
  | .ordered entries => .ordered (redactEntries entries)
  | .scalar s => .scalar s
  | .reference r => .reference r

def redactItems : List Value → List Value
  | [] => []
  | v :: rest => redact v :: redactItems rest

def redactFields : List (String × Value) → List (String × Value)
  | [] => []
  | (key, v) :: rest => (key, redact v) :: redactFields rest

def redactEntries : List (Entry Value) → List (Entry Value)
  | [] => []
  | ⟨key, v, origin⟩ :: rest => ⟨key, redact v, origin⟩ :: redactEntries rest
end

end LayeredConfig.Value
