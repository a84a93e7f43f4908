import LayeredConfig.Number.Binary64

/-!
The shortest decimal that stands for a double.

Of all decimals that read back as a finite double, `Binary64.shortest` takes one
with the fewest digits, of those the nearest to the double, and of two equally
near the one with an even last digit.
-/

namespace LayeredConfig

/-- The number `digits * 10 ^ exponent`. -/
structure Decimal where
  digits : Nat
  exponent : Int
  deriving DecidableEq, Repr, Inhabited

namespace Decimal

/-- A fraction `num / den` of natural numbers. -/
structure Fraction where
  num : Nat
  den : Nat

namespace Fraction

/-- `m * 2 ^ e`. -/
def dyadic (m : Nat) (e : Int) : Fraction :=
  if 0 ≤ e then ⟨m * Nat.pow 2 e.toNat, 1⟩ else ⟨m, Nat.pow 2 (-e).toNat⟩

/-- `x / 10 ^ e`. -/
def scaleDown (x : Fraction) (e : Int) : Fraction :=
  if 0 ≤ e then ⟨x.num, x.den * Nat.pow 10 e.toNat⟩ else ⟨x.num * Nat.pow 10 (-e).toNat, x.den⟩

def lt (x y : Fraction) : Bool := x.num * y.den < y.num * x.den

def le (x y : Fraction) : Bool := x.num * y.den ≤ y.num * x.den

end Fraction

/-- Remove trailing zeros of the digits, at most `fuel` of them. -/
def trim : (fuel : Nat) → Decimal → Decimal
  | 0, d => d
  | fuel + 1, d =>
    if d.digits ≠ 0 ∧ d.digits % 10 = 0 then trim fuel ⟨d.digits / 10, d.exponent + 1⟩ else d

end Decimal

namespace Binary64

open Decimal

/-- The reals that round to a finite double other than zero, as an interval; the ends
belong to it when `closed`. -/
structure RoundingInterval where
  low : Fraction
  high : Fraction
  closed : Bool

/-- Half a unit on either side, or a quarter below where the unit halves. The ends round
to the even significand. -/
def roundingInterval (x : Binary64) : RoundingInterval :=
  let m := x.significand
  let e := x.exponent
  let low := if x.fractionBits = 0 ∧ 1 < x.exponentBits then
      Fraction.dyadic (4 * m - 1) (e - 2) else Fraction.dyadic (2 * m - 1) (e - 1)
  { low, high := Fraction.dyadic (2 * m + 1) (e - 1), closed := m % 2 = 0 }

def RoundingInterval.contains (i : RoundingInterval) (x : Fraction) : Bool :=
  if i.closed then i.low.le x && x.le i.high else i.low.lt x && x.lt i.high

/-- Of the two neighbours of `value` on the grid of multiples of `10 ^ unit`, the one to
write if any reads back: the nearer of those in the interval, of two equally near the
even one. -/
def onGrid? (value : Fraction) (interval : RoundingInterval) (unit : Int) : Option Nat :=
  let scaled := value.scaleDown unit
  let below := scaled.num / scaled.den
  let reads (n : Nat) : Bool := interval.contains (Fraction.scaleDown ⟨n, 1⟩ (-unit))
  -- twice the distance from `below`, in units
  let twice := 2 * (scaled.num % scaled.den)
  match reads below, reads (below + 1) with
  | true, true =>
    if twice < scaled.den then some below
    else if scaled.den < twice then some (below + 1)
    else some (below + below % 2)
  | true, false => some below
  | false, true => some (below + 1)
  | false, false => none

/-- The least `k` of the next `fuel` numbers from `k` with `value < 10 ^ k`. -/
def powerAbove (value : Fraction) : (fuel : Nat) → (k : Int) → Int
  | 0, k => k
  | fuel + 1, k =>
    if value.lt (Fraction.scaleDown ⟨1, 1⟩ (-k)) then k else powerAbove value fuel (k + 1)

/-- The first hit on the grids that give `count`, `count + 1`, … digits to a value whose
power of ten is `top`. -/
def search (value : Fraction) (interval : RoundingInterval) (top : Int) :
    (fuel count : Nat) → Decimal
  | 0, _ => ⟨0, 0⟩
  | fuel + 1, count =>
    match onGrid? value interval (top - count) with
    | some digits => ⟨digits, top - count⟩
    | none => search value interval top fuel (count + 1)

/-- The shortest decimal for the magnitude of a finite double. Seventeen digits are
always enough. -/
def shortest (x : Binary64) : Decimal :=
  if x.significand = 0 then ⟨0, 0⟩
  else
    let value := Fraction.dyadic x.significand x.exponent
    -- a lower bound of the power of ten, from `3010 / 10000 < log 2 / log 10 < 3011 / 10000`
    let power : Int := x.exponent + x.significand.log2
    let start : Int := (if 0 ≤ power then power * 3010 / 10000 else power * 3011 / 10000) - 1
    let top := powerAbove value 8 start
    trim 20 (search value x.roundingInterval top 17 1)

end Binary64

end LayeredConfig
