import LayeredConfig.Resolution.World
import LayeredConfig.Value.Path

/-!
One reference on its way to its data.

A site is a reference at an address. It goes through stages: it asks for its
provider, which may have to be built; it lines up for the outcome under its key and
fetches it if it comes first; for that it needs a permit. `Site.poll` moves a site
as far as it can go now. An interruption is looked at before everything that it
races, and a site that stops gives back all that it holds.
-/

namespace LayeredConfig

/-- Where a reference stands. -/
inductive Stage where
  | fresh
  /-- In line for its provider. -/
  | awaitingProvider
  /-- Building its provider until a moment, with what will come of it. -/
  | building (wake : Nat) (outcome : Except Failure Provider)
  /-- In line for the outcome under its key. -/
  | awaitingOutcome (p : Provider)
  /-- Its fetch waits for a permit. -/
  | queued (p : Provider)
  /-- Fetching until a moment, with what will come of it, but no longer than the limit. -/
  | fetching (wake : Nat) (outcome : Except Failure Value) (limit : Option Nat)

/-- Whether an interruption ends a stage. A site that waits for another one's fetch does
not look at the context. -/
def Stage.isWatchful : Stage → Bool
  | .awaitingOutcome _ => false
  | _ => true

/-- How far a site has come. -/
inductive Progress where
  | waiting (stage : Stage)
  | settled (result : Except ResolveError Value)

namespace Site

/-- What an outcome means for a reference. -/
def settle (r : Reference) : Outcome → Except ResolveError Value
  | .error cause => .error (.unresolved r cause)
  | .ok v =>
    match v.pick r.entryPath with
    | .ok v => .ok v
    | .error found => .error (.unresolved r (.noEntries found))

def interrupted (i : Interruption) : Progress := .settled (.error (.interrupted i))

/-- Start a call. A call that cancels the context wakes its own site last. -/
def begin {α : Type} (here : Address) (call : Call α) (w : World) : World :=
  if call.cancels then (w.begin call).wake here else w

/-! ### Fetching -/

/-- A fetch has ended: return its permit and keep its outcome. -/
def endFetch (r : Reference) (here : Address) (o : Outcome) (w : World) : Progress × World :=
  (.settled (settle r o), w.returnPermit.record r.key here o)

/-- Look whether a fetch with a delay has ended, or else has reached its limit. -/
def watchFetch (r : Reference) (here : Address) (wake : Nat) (outcome : Except Failure Value)
    (limit : Option Nat) (w : World) : Progress × World :=
  if wake ≤ w.now then
    endFetch r here (outcome.mapError .reported) (w.log (.fetchEnded r.alias r.requestPath w.now))
  else if Context.reached limit w.now then
    endFetch r here (.error (.timedOut (w.resolver.policy.fetchTimeout.getD 0))) w
  else (.waiting (.fetching wake outcome limit), w)

/-- Start a fetch, with a permit in hand. -/
def launch (p : Provider) (r : Reference) (here : Address) (w : World) : Progress × World :=
  let call := p.fetch w.trace r.requestPath
  let w := begin here call (w.log (.fetchStarted r.alias r.requestPath w.now))
  if call.delay = 0 then endFetch r here (call.outcome.mapError .reported) w
  else
    watchFetch r here (w.now + call.delay) call.outcome
      (w.resolver.policy.fetchTimeout.map (w.now + ·)) w

/-- Get a permit, or queue for one. -/
def acquire (p : Provider) (r : Reference) (here : Address) (w : World) : Progress × World :=
  match w.interruption? with
  | some i => (interrupted i, w.leaveLine r.key here)
  | none =>
    if w.resolver.hasSpare then launch p r here (w.update Resolver.takePermit)
    else (.waiting (.queued p), w.update (·.enqueue here))

/-- With the provider at hand: use the outcome if it is there, and otherwise line up for
it. Who comes first fetches it. -/
def share (p : Provider) (r : Reference) (here : Address) (w : World) : Progress × World :=
  match Assoc.get? w.resolver.cache r.key with
  | some o => (.settled (settle r o), w)
  | none =>
    let w := w.update (·.lineUp r.key here)
    if w.resolver.lines.isFirst r.key here then acquire p r here w
    else (.waiting (.awaitingOutcome p), w)

/-! ### Finding the provider -/

def withProvider (r : Reference) (here : Address) (result : Except SetupError Provider)
    (w : World) : Progress × World :=
  match result with
  | .ok p => share p r here w
  | .error e => (.settled (.error (.unresolved r (.setup e))), w)

/-- A provider has been built, or could not be. -/
def endBuild (r : Reference) (here : Address) (result : Except SetupError Provider) (w : World) :
    Progress × World :=
  withProvider r here result (w.setBuilt r.alias here result)

/-- Start to build the provider that an alias declares. -/
def build (r : Reference) (here : Address) (providerType : String) (config : Fields) (w : World) :
    Progress × World :=
  match Assoc.get? w.registry.types providerType with
  | none => endBuild r here (.error (.unknownType r.alias providerType)) w
  | some t =>
    let call := t.init w.trace r.alias config
    let w := begin here call (w.log (.initStarted r.alias config w.now))
    if call.delay = 0 then endBuild r here (call.outcome.mapError (.init r.alias)) w
    else (.waiting (.building (w.now + call.delay) call.outcome), w)

/-- Ask for the provider of the alias. If it has yet to be built, line up for it: who
comes first builds it. -/
def provide (r : Reference) (here : Address) (w : World) : Progress × World :=
  match Assoc.get? w.registry.bindings r.alias with
  | none => (.settled (.error (.notRegistered r)), w)
  | some (.installed p) => share p r here w
  | some (.declared _ _ (some result)) => withProvider r here result w
  | some (.declared providerType config none) =>
    let w := w.updateRegistry (·.lineUp r.alias here)
    if w.registry.lines.isFirst r.alias here then build r here providerType config w
    else (.waiting .awaitingProvider, w)

/-- The first step: an outcome that is there needs no provider. -/
def start (r : Reference) (here : Address) (w : World) : Progress × World :=
  match Assoc.get? w.resolver.cache r.key with
  | some o => (.settled (settle r o), w)
  | none => provide r here w

/-! ### Moving on -/

/-- Give back what a site holds, and leave the lines that it stands in. -/
def release (r : Reference) (here : Address) (w : World) : Stage → World
  | .fresh => w
  | .awaitingProvider => w.leaveBuilders r.alias here
  | .building _ _ => w.leaveBuilders r.alias here
  | .awaitingOutcome _ => w.leaveLine r.key here
  | .queued _ => (w.leaveQueue here).leaveLine r.key here
  | .fetching _ _ _ => w.returnPermit.leaveLine r.key here

/-- Whether a site can move. -/
def isReady (r : Reference) (here : Address) (w : World) (stage : Stage) : Bool :=
  (stage.isWatchful && w.interruption?.isSome) ||
    match stage with
    | .fresh => true
    | .awaitingProvider =>
      !w.registry.isUnbuilt r.alias || w.registry.lines.isFirst r.alias here
    | .building wake _ => wake ≤ w.now
    | .awaitingOutcome _ =>
      Assoc.contains w.resolver.cache r.key || w.resolver.lines.isFirst r.key here
    | .queued _ => w.resolver.isNext here
    | .fetching wake _ limit => wake ≤ w.now || Context.reached limit w.now

/-- What a site does next if nothing interrupts it. -/
def proceed (r : Reference) (here : Address) (w : World) : Stage → Progress × World
  | .fresh => start r here w
  | .awaitingProvider => provide r here w
  | .building _ outcome => endBuild r here (outcome.mapError (.init r.alias)) w
  | .awaitingOutcome p => share p r here w
  | .queued p => launch p r here (w.update fun s => (s.leaveQueue here).takePermit)
  | .fetching wake outcome limit => watchFetch r here wake outcome limit w

/-- Move a site as far as it can go now. -/
def poll (r : Reference) (here : Address) (stage : Stage) (w : World) : Progress × World :=
  if isReady r here w stage then
    let w := w.plan (·.unwatch here)
    let (progress, w) :=
      match if stage.isWatchful then w.interruption? else none with
      | some i => (interrupted i, release r here w stage)
      | none => proceed r here w stage
    match progress with
    | .waiting next => (progress, if next.isWatchful then w.plan (·.watch here) else w)
    | .settled _ => (progress, w)
  else (.waiting stage, w)

/-- The moments at which a site will be ready by itself. -/
def moments : Stage → List Nat
  | .building wake _ => [wake]
  | .fetching wake _ limit => wake :: limit.toList
  | _ => []

/-- An upper bound of the steps that a site has still to make. -/
def remaining : Stage → Nat
  | .fresh => 6
  | .awaitingProvider => 5
  | .building _ _ => 4
  | .awaitingOutcome _ => 3
  | .queued _ => 2
  | .fetching _ _ _ => 1

end Site

end LayeredConfig
