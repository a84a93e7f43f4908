import LayeredConfig.Resolution.Error

/-!
What happens during resolution, event by event.
-/

namespace LayeredConfig

/-- Something that happened, with its time. -/
inductive Event where
  /-- A provider began to initialise, with the configuration of its source. -/
  | initStarted («alias» : String) (config : Fields) (time : Nat)
  | fetchStarted («alias» : String) (path : List String) (time : Nat)
  /-- A fetch that had to wait came to its end. -/
  | fetchEnded («alias» : String) (path : List String) (time : Nat)
  /-- A reference without data was given up, since missing data is allowed. -/
  | downgraded (e : ResolveError) (time : Nat)

/-- Events, the latest first. -/
abbrev Trace := List Event

namespace Event

/-- The text of a warning, if the event is one. -/
def warning? : Event → Option String
  | .downgraded e _ => some (e.message ++ "; using null")
  | _ => none

end Event

namespace Trace

/-- The texts of all warnings, in the order in which they came. -/
def warnings (t : Trace) : List String := t.reverse.filterMap Event.warning?

end Trace

end LayeredConfig
