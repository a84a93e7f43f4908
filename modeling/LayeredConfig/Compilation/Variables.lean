import LayeredConfig.Provider.Basic
import LayeredConfig.Value.Json
import LayeredConfig.Value.Path

/-!
The provider behind references to variables.
-/

namespace LayeredConfig

/-- A provider of JSON data: it answers at once, with what the path leads to. -/
def Provider.ofVariables («variables» : Assoc Json) : Provider where
  fetch _ path :=
    { outcome := match (Value.ofJson (.object «variables»)).follow? path with
        | some v => .ok v
        | none => .error { text := s!"variable `{Text.dotted path}` is not defined" } }

end LayeredConfig
