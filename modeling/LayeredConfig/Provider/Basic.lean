import LayeredConfig.Resolution.Trace

/-!
Providers: the sources of data behind references.

A provider is known by how its calls go. What a call does may depend on
everything that has happened before; it may cancel the context as it starts,
it takes some time, and it ends with a result or a failure.
-/

namespace LayeredConfig

/-- How a call of a provider goes. -/
structure Call (α : Type) where
  /-- Whether the provider cancels the context as the call starts. -/
  cancels : Bool := false
  /-- How long the call takes; without a delay it ends as it starts. -/
  delay : Nat := 0
  outcome : Except Failure α

/-- An initialised provider: how it answers when asked for the data at a path. -/
structure Provider where
  fetch : Trace → List String → Call Value

/-- A type of providers: how one is initialised under an alias with a configuration. -/
structure ProviderType where
  init : Trace → («alias» : String) → (config : Fields) → Call Provider

end LayeredConfig
