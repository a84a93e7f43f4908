import LayeredConfig.Resolution.Poll

/-!
Running a task to its end.

Time stands still while anything can move and then jumps to the next moment at
which something will. A run goes step by step, one poll of the whole task each; it
has no result only if its task waits for nothing that will ever come.
-/

namespace LayeredConfig

namespace World

/-- Let the time be a moment that is yet to come. Whoever is still awake then could not move,
and has to be woken anew. -/
def advanceTo (w : World) (moment : Nat) : World :=
  if w.now < moment then { w with now := moment }.plan (·.settle []) else w

/-- The moments that the context sets. -/
def contextMoments (w : World) : List Nat :=
  w.context.deadline.toList ++ w.context.cancelAt.toList

/-- The next of several moments that are yet to come. -/
def nextMoment? (w : World) (moments : List Nat) : Option Nat :=
  (moments.filter (w.now < ·)).min?

/-- Let whoever cancels at a set moment do so, if it has come. -/
def strike (w : World) : World := if w.context.isStruck w.now then w.cancel else w

end World

namespace Task

/-- When a task is polled next: at once if anything can move. -/
def nextPoll? (parallel : Bool) (t : Task) (w : World) : Option Nat :=
  if t.isReady parallel w [] then some w.now else w.nextMoment? (t.moments ++ w.contextMoments)

/-- Poll a task, with all awake who can move. Whoever cancels at a set moment comes after the
work of that moment. -/
def look (parallel : Bool) (t : Task) (w : World) : Task × World :=
  let (t, w) := t.poll parallel [] (w.plan (·.rouse (t.ready parallel w [])))
  (t, if t.isOver then w else w.strike)

/-- Poll a task when it is time. Nothing comes of it if nothing will ever move the task. -/
def step? (parallel : Bool) (t : Task) (w : World) : Option (Task × World) :=
  (t.nextPoll? parallel w).map fun moment => t.look parallel (w.advanceTo moment)

/-- Go on until the task is over. -/
def run (parallel : Bool) : (fuel : Nat) → Task → World →
    Option (Except ResolveError Value) × World
  | 0, t, w => (t.result?, t.release parallel [] w)
  | fuel + 1, t, w =>
    match t.result? with
    | some result => (some result, w)
    | none =>
      match t.step? parallel w with
      | some (t, w) => run parallel fuel t w
      | none => (none, t.release parallel [] w)

end Task

namespace World

/-- Run a task. Every step but the one before a cancellation moves it, and there are as
many moves as `Task.remaining` counts. -/
def runTask (w : World) (t : Task) : Option (Except ResolveError Value) × World :=
  let (result, w) := t.run w.resolver.policy.isParallel (t.remaining + 2) w
  (result, { w with agenda := {} })

/-- Resolve every reference in a value. -/
def resolve (w : World) (v : Value) : Option (Except ResolveError Value) × World :=
  w.runTask (.ofValue v)

/-- Resolve every value of a plain map. -/
def resolveFields (w : World) (fields : Fields) : Option (Except ResolveError Value) × World :=
  w.runTask (.ofMap fields)

/-- Do something that somebody outside will cancel after a time, if it is still going on. -/
def cancelAfter {α : Type} (ms : Option Nat) (action : World → α × World) (w : World) :
    α × World :=
  let (a, w) := action { w with context := { w.context with cancelAt := ms.map (w.now + ·) } }
  (a, { w with context := { w.context with cancelAt := none } })

end World

end LayeredConfig
