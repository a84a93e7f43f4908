import LayeredConfig.Value.Json
import LayeredConfig.Value.Redaction

/-!
Snapshots: what compilation yields.
-/

namespace LayeredConfig

structure Snapshot where
  /-- The merged configuration, without references. -/
  values : Fields
  /-- The references that were given up, in the order in which they were reported. -/
  warnings : List String := []

namespace Snapshot

/-- A snapshot as JSON data, with its secrets in the open. -/
def toJson (s : Snapshot) : Json :=
  .object (("values", (Value.map s.values).toJson) ::
    if s.warnings.isEmpty then [] else [("warnings", .array (s.warnings.map .string))])

/-- The values with every secret hidden. -/
def redacted (s : Snapshot) : Value := (Value.map s.values).redact

end Snapshot

end LayeredConfig
