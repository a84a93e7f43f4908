import LayeredConfig.Resolution.Error

/-!
When a run has to stop.

Time is counted in milliseconds. A context is cancelled by whoever holds it,
perhaps at a time that is set in advance, and it may have a deadline; the
cancellation is reported first where both have come.
-/

namespace LayeredConfig

structure Context where
  cancelled : Bool := false
  /-- The moment from which the context counts as expired. -/
  deadline : Option Nat := none
  /-- The moment at which somebody outside will cancel. -/
  cancelAt : Option Nat := none
  deriving DecidableEq, Repr

namespace Context

/-- Whether a moment that is set, if it is, has come. -/
def reached (moment : Option Nat) (now : Nat) : Bool :=
  match moment with
  | some t => t ≤ now
  | none => false

/-- Why a run must stop now, if it must. -/
def interruption? (c : Context) (now : Nat) : Option Interruption :=
  if c.cancelled then some .cancelled
  else if reached c.deadline now then some .deadlineExceeded
  else none

def cancel (c : Context) : Context := { c with cancelled := true }

/-- Whether the moment of the cancellation from outside has come, and it is not cancelled yet. -/
def isStruck (c : Context) (now : Nat) : Bool := !c.cancelled && reached c.cancelAt now

end Context

end LayeredConfig
