import LayeredConfig.Merge.Spread
import LayeredConfig.Provider.Failure
import LayeredConfig.Text.Duration

/-!
Why a value cannot be resolved.
-/

namespace LayeredConfig

/-- Why there is no data behind a reference. -/
inductive Cause where
  /-- The provider's own words. -/
  | reported (failure : Failure)
  /-- The provider could not be set up. -/
  | setup (e : SetupError)
  /-- The fetch took longer than the limit of so many milliseconds. -/
  | timedOut (limit : Nat)
  /-- A wildcard asked for the entries of a value that has none. -/
  | noEntries (found : Value.Kind)
  deriving DecidableEq, Repr

namespace Cause

def message : Cause → String
  | .reported failure => failure.text
  | .setup e => e.message
  | .timedOut limit => s!"fetch timed out after {Text.duration limit}"
  | .noEntries found =>
    s!"wildcard expects a map or list, but the provider returned a {found.word}"

/-- The texts of what lies behind a cause, outermost first. -/
def causes : Cause → List String
  | .reported failure => failure.causes
  | .setup e => e.causes
  | .timedOut _ => []
  | .noEntries _ => []

end Cause

/-- Why a whole run stops. -/
inductive Interruption where
  | cancelled
  | deadlineExceeded
  deriving DecidableEq, Repr

def Interruption.message : Interruption → String
  | .cancelled => "resolution was cancelled"
  | .deadlineExceeded => "resolution deadline exceeded"

inductive ResolveError where
  /-- No source declares the alias of a reference. -/
  | notRegistered (r : Reference)
  | unresolved (r : Reference) (cause : Cause)
  | spread (e : SpreadError)
  | interrupted (i : Interruption)
  deriving DecidableEq, Repr

namespace ResolveError

def isInterruption : ResolveError → Bool
  | .interrupted _ => true
  | _ => false

def message : ResolveError → String
  | .notRegistered r =>
    s!"provider not registered for alias {Text.quoted r.alias} at {r.origin.text}"
  | .unresolved r cause =>
    s!"unable to resolve reference {r.text} at {r.origin.text}: {cause.message}"
  | .spread e => e.message
  | .interrupted i => i.message

/-- The texts of what lies behind an error, outermost first. -/
def causes : ResolveError → List String
  | .unresolved _ cause => cause.message :: cause.causes
  | _ => []

def origin? : ResolveError → Option Origin
  | .notRegistered r => some r.origin
  | .unresolved r _ => some r.origin
  | .spread e => some e.origin
  | .interrupted _ => none

def code : ResolveError → String
  | .notRegistered _ => "C-2-1"
  | .unresolved _ (.setup _) => "C-2-4"
  | .unresolved _ _ => "C-2-2"
  | .spread e => e.code
  | .interrupted _ => "C-2-3"

def diagnostic (e : ResolveError) : Diagnostic :=
  match e with
  | .spread e => e.diagnostic
  | .notRegistered r =>
    { code := some e.code, title := "Provider not registered",
      problem := some s!"No source declares the alias `{r.alias}`",
      hints := ["Add a `source " ++ r.alias ++ " = \"<type>\" \x7b ... \x7d` declaration"],
      origin := e.origin? }
  | .unresolved r cause =>
    let title := match cause with
      | .setup _ => "Provider setup failed"
      | _ => "Unresolved reference"
    { code := some e.code, title,
      problem := some s!"`{r.text}` could not be resolved: {cause.message}",
      origin := e.origin? }
  | .interrupted i =>
    { code := some e.code, title := "Resolution cancelled", problem := some i.message }

end ResolveError

end LayeredConfig
