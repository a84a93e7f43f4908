/-!
How references are resolved where data is missing, slow or much.

The bound on fetches is a number of any size here. A machine that counts permits in a word of
64 bits and sets three of them aside has no resolver with `2 ^ 61` permits or more, so there a
policy with such a bound has nothing that it is the policy of. No smaller bound is affected.
-/

namespace LayeredConfig

structure Policy where
  /-- Give up references without data, with a warning each. -/
  allowMissing : Bool := false
  /-- How many fetches may run at once. -/
  maxConcurrent : Nat := 4
  /-- How many milliseconds a fetch may take. -/
  fetchTimeout : Option Nat := none
  deriving DecidableEq, Repr

namespace Policy

/-- Whether parts of a value are resolved side by side rather than one after another. -/
def isParallel (p : Policy) : Bool := 1 < p.maxConcurrent

/-- How many permits there are; a fetch holds one while it runs. There is always one, and no
limit is set from above, as a machine would set it. -/
def permits (p : Policy) : Nat := max p.maxConcurrent 1

end Policy

end LayeredConfig
