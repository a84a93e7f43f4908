import LayeredConfig.Resolution.World

/-!
Asking for providers and data outside a run.

One call is made at a time and awaited to its end; nothing interrupts it.
-/

namespace LayeredConfig.World

/-- Await a call that has just started. -/
def await {α : Type} (w : World) (call : Call α) : Except Failure α × World :=
  (call.outcome, { w.begin call with now := w.now + call.delay })

/-- Build a provider of a type. -/
def buildProvider (w : World) («alias» providerType : String) (config : Fields) :
    Except SetupError Provider × World :=
  match Assoc.get? w.registry.types providerType with
  | none => (.error (.unknownType «alias» providerType), w)
  | some t =>
    let (outcome, w) := (w.log (.initStarted «alias» config w.now)).await
      (t.init w.trace «alias» config)
    (outcome.mapError (SetupError.init «alias»), w)

/-- The provider that an alias stands for, built if nobody has; none if the alias is not
bound. How the building ends is kept. -/
def obtainProvider (w : World) («alias» : String) : Except SetupError (Option Provider) × World :=
  match Assoc.get? w.registry.bindings «alias» with
  | none => (.ok none, w)
  | some (.installed p) => (.ok (some p), w)
  | some (.declared _ _ (some result)) => (result.map some, w)
  | some (.declared providerType config none) =>
    let (result, w) := w.buildProvider «alias» providerType config
    (result.map some, w.updateRegistry (·.setBuilt «alias» result))

/-- Ask a provider for the data at a path. -/
def fetch (w : World) (p : Provider) («alias» : String) (path : List String) :
    Except Failure Value × World :=
  let call := p.fetch w.trace path
  let (outcome, w) := (w.log (.fetchStarted «alias» path w.now)).await call
  (outcome, if call.delay = 0 then w else w.log (.fetchEnded «alias» path w.now))

/-- Wait until the context is interrupted; no answer if nothing will ever interrupt it. -/
def awaitInterruption (w : World) : Option Interruption × World :=
  match w.interruption?, w.context.deadline with
  | some i, _ => (some i, w)
  | none, some deadline => (some .deadlineExceeded, { w with now := deadline })
  | none, none => (none, w)

end LayeredConfig.World
