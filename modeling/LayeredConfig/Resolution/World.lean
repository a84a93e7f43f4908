import LayeredConfig.Provider.Registry
import LayeredConfig.Resolution.Agenda
import LayeredConfig.Resolution.Context
import LayeredConfig.Resolution.Policy

/-!
The state that resolution works on.

A resolver keeps the outcome of every fetch under the key of its reference. Who
wants an outcome that is not there stands in line for it: the first one fetches it,
with one of the permits, for which fetches queue, first come first served. `World`
adds the clock, the context and the registry, the agenda and the trace of all that
has happened. Whoever gives something back wakes whom that serves.
-/

namespace LayeredConfig

/-- What a fetch produced. -/
abbrev Outcome := Except Cause Value

/-- The key of an outcome: alias, colon, and the segments with slashes between them. -/
def cacheKey («alias» : String) (path : List String) : String :=
  «alias» ++ ":" ++ "/".intercalate path

/-- The key under which the data behind a reference is kept. -/
def Reference.key (r : Reference) : String := cacheKey r.alias r.requestPath

structure Resolver where
  policy : Policy := {}
  /-- The outcomes of finished fetches. -/
  cache : Assoc Outcome := []
  /-- Who stands in line for an outcome that is not there yet, by key. -/
  lines : Lines := []
  /-- How many permits nobody holds. -/
  free : Nat := policy.permits
  /-- Whose fetches wait for a permit, in the order in which they came. -/
  queue : List Address := []

namespace Resolver

/-- Whether a fetch that comes last in the queue could have a permit at once. -/
def hasSpare (r : Resolver) : Bool := r.queue.length < r.free

/-- Whether a permit is there for somebody in the queue: those in front are served first. -/
def isNext (r : Resolver) (a : Address) : Bool := (r.queue.take r.free).contains a

/-- The first in the queue for whom there is no permit. -/
def firstUnserved? (r : Resolver) : Option Address := r.queue[r.free]?

def enqueue (r : Resolver) (a : Address) : Resolver := { r with queue := r.queue ++ [a] }

def leaveQueue (r : Resolver) (a : Address) : Resolver := { r with queue := r.queue.erase a }

def takePermit (r : Resolver) : Resolver := { r with free := r.free - 1 }

def returnPermit (r : Resolver) : Resolver := { r with free := r.free + 1 }

def lineUp (r : Resolver) (key : String) (a : Address) : Resolver :=
  { r with lines := r.lines.join key a }

def leaveLine (r : Resolver) (key : String) (a : Address) : Resolver :=
  { r with lines := r.lines.leave key a }

/-- Keep the outcome of a fetch. -/
def record (r : Resolver) (key : String) (o : Outcome) : Resolver :=
  { r with cache := Assoc.insert r.cache key o, lines := r.lines.dissolve key }

end Resolver

structure World where
  /-- The time, in milliseconds. -/
  now : Nat := 0
  context : Context := {}
  registry : Registry := {}
  resolver : Resolver := {}
  agenda : Agenda := {}
  trace : Trace := []

namespace World

/-- Why a run must stop now, if it must. -/
def interruption? (w : World) : Option Interruption := w.context.interruption? w.now

def log (w : World) (e : Event) : World := { w with trace := e :: w.trace }

/-- Change the resolver. -/
def update (w : World) (f : Resolver → Resolver) : World := { w with resolver := f w.resolver }

/-- Change the registry. -/
def updateRegistry (w : World) (f : Registry → Registry) : World :=
  { w with registry := f w.registry }

/-- Change the agenda. -/
def plan (w : World) (f : Agenda → Agenda) : World := { w with agenda := f w.agenda }

def wake (w : World) (a : Address) : World := w.plan (·.wake a)

def wakeAll (w : World) (as : List Address) : World := w.plan (·.wakeAll as)

/-- Cancel the context, which wakes all who watch out for that. -/
def cancel (w : World) : World :=
  { w with context := w.context.cancel }.wakeAll w.agenda.watching

/-- What a starting call does to the context. -/
def begin {α : Type} (w : World) (call : Call α) : World :=
  if call.cancels then w.cancel else w

/-! ### Giving back -/

/-- Return a permit: it serves the first who has none. -/
def returnPermit (w : World) : World :=
  (w.update Resolver.returnPermit).wakeAll w.resolver.firstUnserved?.toList

/-- Leave the queue for permits. A permit that was there serves somebody else. -/
def leaveQueue (w : World) (a : Address) : World :=
  let w' := w.update (·.leaveQueue a)
  if w.resolver.isNext a then w'.wakeAll w.resolver.firstUnserved?.toList else w'

/-- Leave the line for an outcome. -/
def leaveLine (w : World) (key : String) (a : Address) : World :=
  (w.update (·.leaveLine key a)).wakeAll (w.resolver.lines.heir? key a).toList

/-- Leave the line for a provider. -/
def leaveBuilders (w : World) («alias» : String) (a : Address) : World :=
  (w.updateRegistry (·.leaveLine «alias» a)).wakeAll (w.registry.lines.heir? «alias» a).toList

/-- Keep the outcome of a fetch, which serves all who wait for it. -/
def record (w : World) (key : String) (a : Address) (o : Outcome) : World :=
  (w.update (·.record key o)).wakeAll ((w.resolver.lines.leave key a).members key)

/-- Keep how the building of a provider ended, which serves all who wait for it. -/
def setBuilt (w : World) («alias» : String) (a : Address) (result : Except SetupError Provider) :
    World :=
  (w.updateRegistry (·.setBuilt «alias» result)).wakeAll
    ((w.registry.lines.leave «alias» a).members «alias»)

end World

end LayeredConfig
