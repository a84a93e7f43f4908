import LayeredConfig.Diagnostic.Basic
import LayeredConfig.Resolution.Policy
import LayeredConfig.Toml.Json

/-!
Options of a compilation, which a TOML file may set.
-/

namespace LayeredConfig

structure CompileOptions extends Policy where
  /-- The data behind `var.` names. -/
  «variables» : Assoc Json := []

/-- Why options cannot be read. -/
inductive OptionsError where
  | notToml
  | unknownKey (key : String)
  | wrongValue (key : String)
  deriving DecidableEq, Repr

namespace OptionsError

def message : OptionsError → String
  | .notToml => "invalid compile options: not a TOML document"
  | .unknownKey key => s!"invalid compile options: unknown key `{key}`"
  | .wrongValue key => s!"invalid compile options: wrong value for `{key}`"

def diagnostic (e : OptionsError) : Diagnostic :=
  { code := some "C-0-2", title := "Invalid compile options", problem := some e.message }

end OptionsError

namespace CompileOptions

/-- Set a variable. -/
def setVariable (o : CompileOptions) (name : String) (value : Json) : CompileOptions :=
  { o with «variables» := Assoc.insert o.variables name value }

/-- Whether nothing is set. -/
def isDefault (o : CompileOptions) : Bool := o.toPolicy == {} && o.variables.isEmpty

/-- An integer that is not negative. -/
def natural? : Toml.Value → Option Nat
  | .integer i => if 0 ≤ i.toInt then some i.toInt.toNat else none
  | _ => none

/-- One key of an options file. -/
def setKey (o : CompileOptions) (key : String) (v : Toml.Value) :
    Except OptionsError CompileOptions :=
  let set (r : Option CompileOptions) := match r with
    | some o => Except.ok o
    | none => .error (.wrongValue key)
  match key with
  | "allow_missing_provider" => set <| match v with
    | .bool b => some { o with allowMissing := b }
    | _ => none
  | "max_concurrent_providers" => set <| (natural? v).map ({ o with maxConcurrent := · })
  | "fetch_timeout_ms" => set <| (natural? v).map fun n => { o with fetchTimeout := some n }
  | "variables" => set <| v.fields?.map fun fields => { o with «variables» := fields }
  | _ => .error (.unknownKey key)

/-- The options that a TOML text sets; those that it leaves out keep their defaults. -/
def ofToml (text : String) : Except OptionsError CompileOptions :=
  match Toml.read? text with
  | none => .error .notToml
  | some fields => fields.foldlM (fun o (key, v) => o.setKey key v) {}

end CompileOptions

end LayeredConfig
