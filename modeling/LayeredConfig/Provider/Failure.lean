import LayeredConfig.Text.Quoted

/-!
What goes wrong with providers.
-/

namespace LayeredConfig

/-- What a provider reports when it fails: a text, and the texts of what caused it,
outermost first. -/
structure Failure where
  text : String
  causes : List String := []
  deriving DecidableEq, Repr

/-- Why a provider cannot be set up. -/
inductive SetupError where
  | unknownType («alias» providerType : String)
  | init («alias» : String) (failure : Failure)
  deriving DecidableEq, Repr

namespace SetupError

def message : SetupError → String
  | .unknownType source providerType =>
    s!"unknown provider type {Text.quoted providerType} for source {Text.quoted source}"
  | .init source failure =>
    s!"failed to initialise provider {Text.quoted source}: {failure.text}"

/-- The texts of what caused the error, outermost first. -/
def causes : SetupError → List String
  | .unknownType .. => []
  | .init _ failure => failure.text :: failure.causes

end SetupError

end LayeredConfig
