import LayeredConfig.Value.Basic

/-!
Equality of values.

Two plain maps are equal when they have equal fields, in whatever order; lists
and entries are compared in order. Floats are compared as numbers, so a value
with a NaN in it does not equal itself. Origins count.
-/

namespace LayeredConfig

def Scalar.same : Scalar → Scalar → Bool
  | .float x, .float y => x.numEq y
  | a, b => a == b

namespace Value

mutual
def same : Value → Value → Bool
  | .scalar a, .scalar b => a.same b
  | .list xs, .list ys => sameItems xs ys
  | .map m, .map n => m.length == n.length && sameFields m n
  | .ordered xs, .ordered ys => sameEntries xs ys
  | .reference r, .reference s => r == s
  | .secret a, .secret b => same a b
  | _, _ => false
termination_by structural v => v

def sameItems : List Value → List Value → Bool
  | [], [] => true
  | a :: xs, b :: ys => same a b && sameItems xs ys
  | _, _ => false

/-- Whether every field of the first list has an equal one in the second. -/
def sameFields : List (String × Value) → Fields → Bool
  | [], _ => true
  | (key, a) :: rest, n =>
    (match Assoc.get? n key with
      | some b => same a b
      | none => false) && sameFields rest n

def sameEntries : List (Entry Value) → List (Entry Value) → Bool
  | [], [] => true
  | ⟨key, a, origin⟩ :: xs, ⟨key', b, origin'⟩ :: ys =>
    key == key' && same a b && origin == origin' && sameEntries xs ys
  | _, _ => false
end

end Value

end LayeredConfig
