import LayeredConfig.Compilation.Error
import LayeredConfig.Compilation.Options
import LayeredConfig.Compilation.Snapshot
import LayeredConfig.Compilation.Variables
import LayeredConfig.Document.Conversion
import LayeredConfig.Merge.Layers
import LayeredConfig.Resolution.Run

/-!
Compilation: from documents to one snapshot.

There are two passes over the documents, in load order. The first converts them
and declares their sources; the configuration of a source is resolved before it
is declared, so it may use the sources in front of it. The second resolves every
document, when all sources are known, and lays each over those before it. One
registry and one resolver serve all documents, so a provider is built once, and
nothing is fetched twice.
-/

namespace LayeredConfig

/-- A world for a new compilation: only the variables have a provider, and nothing has
been fetched. Clock and context stay. -/
def World.prepare (w : World) (types : Assoc ProviderType) (options : CompileOptions) : World :=
  let «variables» : Provider := .ofVariables options.variables
  { w with
    registry := { types, bindings := [(variablesAlias, .installed «variables»)] }
    resolver := { policy := options.toPolicy }
    trace := [] }

/-- A part of a compilation. It may fail, and it has no result if it waits for nothing that
will ever come. -/
abbrev Compiling := ExceptT CompileError (OptionT (StateM World))

namespace Compiling

/-- What happens to a world, as a part of a compilation. -/
def ofRun {α : Type} (action : World → Option (Except CompileError α) × World) : Compiling α :=
  ExceptT.mk (OptionT.mk action)

/-- A result that needs no world. -/
def ofExcept {α : Type} (r : Except CompileError α) : Compiling α := ofRun fun w => (some r, w)

/-- Resolve a map of a file; its fields are the result. -/
def fields (file : String) (resolve : World → Option (Except ResolveError Value) × World) :
    Compiling Fields :=
  ofRun fun w =>
    let (result, w) := resolve w
    (result.map fun r => (r.mapError (.resolution file)).map (·.asMap?.getD []), w)

/-- Enter a source in the registry, where an earlier one with its alias stays in effect. -/
def register (s : DeclaredSource) (config : Fields) : Compiling Unit :=
  ofRun fun w =>
    let (result, registry) := w.registry.register s.alias s.providerType config
    (some ((result.mapError .setup).map fun _ => ()), { w with registry })

/-- Resolve the configuration of a source and declare it. -/
def declareSource (file : String) (s : DeclaredSource) : Compiling Unit := do
  register s (← fields file (·.resolveFields s.config))

/-- The first pass: convert documents and declare their sources. Of each document its
file and its root are left. -/
def roots : List Document → Compiling (List (String × Value))
  | [] => return []
  | d :: rest => do
    let converted ← ofExcept (d.convert.mapError (.conversion d.file))
    converted.sources.forM (declareSource d.file)
    return (d.file, converted.root) :: (← roots rest)

/-- The second pass: resolve the roots. -/
def layers : List (String × Value) → Compiling (List Fields)
  | [] => return []
  | (file, root) :: rest => do
    let layer ← fields file (·.resolve root)
    return layer :: (← layers rest)

/-- Both passes. -/
def values (documents : List Document) : Compiling Fields := do
  return mergeLayers (← layers (← roots documents))

end Compiling

/-- Compile documents against types of providers. -/
def compile (types : Assoc ProviderType) (options : CompileOptions) (documents : List Document)
    (w : World) : Option (Except CompileError Snapshot) × World :=
  let (result, w) := (Compiling.values documents).run.run.run (w.prepare types options)
  (result.map (·.map fun values => { values, warnings := w.trace.warnings }), w)

end LayeredConfig
