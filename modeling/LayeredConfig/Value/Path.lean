import LayeredConfig.Value.Basic

/-!
Paths into a value.

A segment is a key of a plain map or an index of a list; a secret is passed
through. `Value.pick` follows a path in every entry of a value, which is what
the segments after a wildcard ask for.
-/

namespace LayeredConfig

/-- A list index: decimal digits, perhaps after a plus sign, below `2 ^ 64`. -/
def index? (segment : String) : Option Nat :=
  let digits := match segment.toList with
    | '+' :: rest => rest
    | cs => cs
  if digits.isEmpty ∨ !digits.all (fun c => '0' ≤ c ∧ c ≤ '9') then none
  else
    let n := digits.foldl (fun n c => n * 10 + (c.toNat - '0'.toNat)) 0
    if n < UInt64.size then some n else none

namespace Value

/-- What one segment leads to. -/
def child? (segment : String) : Value → Option Value
  | .map fields => Assoc.get? fields segment
  | .list items => do items[← index? segment]?
  | .secret inner => child? segment inner
  | _ => none

/-- What a path leads to; the empty path leads to the value itself. -/
def follow? : Value → List String → Option Value
  | v, [] => some v
  | v, segment :: rest => do follow? (← v.child? segment) rest

/-- Follow a path in every entry of a plain map or a list, and drop the entries without
it. A secret keeps its result secret. No other kind of value has entries; it is returned
as the kind that was found. -/
def pickEach (path : List String) : Value → Except Kind Value
  | .map fields => .ok (.map (fields.filterMap fun f => (f.2.follow? path).map (f.1, ·)))
  | .list items => .ok (.list (items.filterMap (·.follow? path)))
  | .secret inner => (pickEach path inner).map .secret
  | v => .error v.kind

/-- The part of a fetched value that a reference asks for: the value itself when nothing
follows its wildcard, otherwise what the path leads to in every entry. -/
def pick (path : List String) (v : Value) : Except Kind Value :=
  if path.isEmpty then .ok v else pickEach path v

end Value

end LayeredConfig
