import LayeredConfig.Document.ConversionError
import LayeredConfig.Resolution.Error

/-!
Why documents cannot be compiled.
-/

namespace LayeredConfig

inductive CompileError where
  | conversion (file : String) (e : ConversionError)
  /-- A source declaration that the registry refuses. -/
  | setup (e : SetupError)
  | resolution (file : String) (e : ResolveError)
  deriving DecidableEq, Repr

namespace CompileError

def message : CompileError → String
  | .conversion file e => s!"failed to convert {file}: {e.message}"
  | .setup e => e.message
  | .resolution file e => s!"failed to resolve {file}: {e.message}"

/-- The texts of what lies behind an error, outermost first. A wrong document has nothing
behind it but itself. -/
def causes : CompileError → List String
  | .conversion .. => []
  | .setup e => e.causes
  | .resolution _ e => e.message :: e.causes

def origin? : CompileError → Option Origin
  | .conversion _ e => some e.origin
  | .setup _ => none
  | .resolution _ e => e.origin?

def diagnostic : CompileError → Diagnostic
  | .conversion _ e => e.diagnostic
  | .setup e =>
    { code := some "C-2-4", title := "Provider setup failed", problem := some e.message }
  | .resolution _ e => e.diagnostic

end CompileError

end LayeredConfig
