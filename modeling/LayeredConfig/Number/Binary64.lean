/-!
Double-precision numbers, by their bits.

A double is kept as its 64 bits, so that what is read, compared and written is
decided by exact arithmetic on natural numbers. `Binary64.significand` and
`Binary64.exponent` give a finite double as `significand * 2 ^ exponent`;
`Binary64.ofRatio` finds the double nearest to a fraction, a half going to the
even neighbour.
-/

namespace LayeredConfig

/-- The bits of a double: a sign, eleven bits of exponent, 52 bits of fraction. -/
structure Binary64 where
  bits : UInt64
  deriving DecidableEq, Repr, Inhabited

namespace Binary64

/-- Whether the sign bit is set. -/
def isNegative (x : Binary64) : Bool := Nat.pow 2 63 ≤ x.bits.toNat

/-- The eleven exponent bits. -/
def exponentBits (x : Binary64) : Nat := x.bits.toNat / Nat.pow 2 52 % Nat.pow 2 11

/-- The 52 fraction bits. -/
def fractionBits (x : Binary64) : Nat := x.bits.toNat % Nat.pow 2 52

/-- Neither an infinity nor a NaN. -/
def isFinite (x : Binary64) : Bool := x.exponentBits ≠ 2047

def isNaN (x : Binary64) : Bool := x.exponentBits = 2047 ∧ x.fractionBits ≠ 0

/-- Either zero. -/
def isZero (x : Binary64) : Bool := x.exponentBits = 0 ∧ x.fractionBits = 0

/-- The integer `m` of a finite double's magnitude `m * 2 ^ e`. -/
def significand (x : Binary64) : Nat :=
  if x.exponentBits = 0 then x.fractionBits else Nat.pow 2 52 + x.fractionBits

/-- The exponent `e` of a finite double's magnitude `m * 2 ^ e`. -/
def exponent (x : Binary64) : Int := (max x.exponentBits 1 : Nat) - 1075

/-- Equality of numbers: the two zeros are equal and a NaN equals nothing. -/
def numEq (x y : Binary64) : Bool :=
  !x.isNaN && !y.isNaN && (x.bits == y.bits || (x.isZero && y.isZero))

/-- The double with a sign and the bits of a magnitude. -/
def ofMagnitude (negative : Bool) (magnitude : Nat) : Binary64 :=
  ⟨UInt64.ofNat ((if negative then Nat.pow 2 63 else 0) + magnitude)⟩

/-- The bits of infinity's magnitude. -/
def infinityBits : Nat := 2047 * Nat.pow 2 52

def infinity (negative : Bool) : Binary64 := ofMagnitude negative infinityBits

def nan : Binary64 := ⟨UInt64.ofNat (infinityBits + Nat.pow 2 51)⟩

/-- A quotient rounded to the nearest natural number, a half to the even one. -/
def divideToEven (num den : Nat) : Nat :=
  let q := num / den
  let r := num % den
  if den < 2 * r then q + 1
  else if 2 * r < den then q
  else q + q % 2

/-- `num / den` in units of `2 ^ e`, rounded to the nearest, a half to the even one. -/
def inUnitsOf (num den : Nat) (e : Int) : Nat :=
  if 0 ≤ e then divideToEven num (den * Nat.pow 2 e.toNat)
  else divideToEven (num * Nat.pow 2 (-e).toNat) den

/-- The double nearest to `num / den`. The unit is chosen so that the rounded
significand has 53 bits, or is `2 ^ -1074` for the smallest numbers; a
significand that rounds up to `2 ^ 53` carries into the exponent bits by itself. -/
def ofRatio (negative : Bool) (num den : Nat) : Binary64 :=
  if num = 0 ∨ den = 0 then ofMagnitude negative 0
  else
    let guess : Int := (num.log2 : Int) - den.log2 - 53
    let units (e : Int) : Nat :=
      if 0 ≤ e then num / (den * Nat.pow 2 e.toNat) else num * Nat.pow 2 (-e).toNat / den
    let e : Int := max (if units guess < Nat.pow 2 53 then guess else guess + 1) (-1074)
    let magnitude := (e + 1074).toNat * Nat.pow 2 52 + inUnitsOf num den e
    ofMagnitude negative (min magnitude infinityBits)

/-- The double nearest to a natural number. -/
def ofNat (n : Nat) : Binary64 := ofRatio false n 1

/-- The double nearest to `digits * 10 ^ exponent`. Numbers beyond every double, or
below half the smallest, are told by their number of digits. -/
def ofDecimal (negative : Bool) (digits : Nat) (exponent : Int) : Binary64 :=
  let size : Int := (toString digits).length + exponent
  if digits = 0 ∨ size < -330 then ofMagnitude negative 0
  else if 310 < size then infinity negative
  else if 0 ≤ exponent then ofRatio negative (digits * Nat.pow 10 exponent.toNat) 1
  else ofRatio negative digits (Nat.pow 10 (-exponent).toNat)

end Binary64

end LayeredConfig
