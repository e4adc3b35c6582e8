/-! # Binary64 numbers

A finite binary64 number is a sign, a significand below `2 ^ 53` and a power of two; the
significand is at least `2 ^ 52` unless the power is the least one. Every operation here is an
exact quotient of natural numbers that `ofRatio` rounds once, to nearest and a tie to the even
significand, so the results are those of the machine's arithmetic.
-/

namespace EventSim

/-- The natural number nearest to `num / den`, of two the even one. -/
def divNearest (num den : Nat) : Nat :=
  let q := num / den
  let r := num % den
  if 2 * r < den then q else if den < 2 * r then q + 1 else q + q % 2

/-- A finite binary64 number, `± significand * 2 ^ exponent`. -/
structure Binary64 where
  negative : Bool
  significand : Nat
  exponent : Int
  deriving DecidableEq, Repr

namespace Binary64

/-- The power of two of the least significands. -/
def leastExponent : Int := -1074

/-- `num / den * 2 ^ (-e)` as a quotient of natural numbers. -/
def scaled (num den : Nat) (e : Int) : Nat × Nat :=
  if 0 ≤ e then (num, den * Nat.pow 2 e.toNat) else (num * Nat.pow 2 (-e).toNat, den)

/-- The binary64 number nearest to `num / den`. -/
def ofRatio (negative : Bool) (num den : Nat) : Binary64 :=
  if num = 0 then ⟨negative, 0, leastExponent⟩
  else
    let low : Int := (Nat.log2 num : Int) - Nat.log2 den - 53
    let at_low := scaled num den low
    let fit := if at_low.1 / at_low.2 < Nat.pow 2 53 then low else low + 1
    let e := max fit leastExponent
    let s := scaled num den e
    let q := divNearest s.1 s.2
    if q = Nat.pow 2 53 then ⟨negative, Nat.pow 2 52, e + 1⟩ else ⟨negative, q, e⟩

/-- The magnitude as a quotient of natural numbers. -/
def ratio (x : Binary64) : Nat × Nat :=
  if 0 ≤ x.exponent then (x.significand * Nat.pow 2 x.exponent.toNat, 1)
  else (x.significand, Nat.pow 2 (-x.exponent).toNat)

/-- The number is above every finite one. -/
def isInfinite (x : Binary64) : Bool := decide (971 < x.exponent)

/-- The number is zero, of either sign. -/
def isZero (x : Binary64) : Bool := x.significand == 0

/-- The number with the other sign. -/
def neg (x : Binary64) : Binary64 := { x with negative := !x.negative }

/-- The number nearest to an integer. -/
def ofInt (n : Int) : Binary64 := ofRatio (decide (n < 0)) n.natAbs 1

/-- The product, rounded. -/
def mul (x y : Binary64) : Binary64 :=
  let a := x.ratio
  let b := y.ratio
  ofRatio (x.negative != y.negative) (a.1 * b.1) (a.2 * b.2)

/-- The quotient by a number that is not zero, rounded. -/
def div (x y : Binary64) : Binary64 :=
  let a := x.ratio
  let b := y.ratio
  ofRatio (x.negative != y.negative) (a.1 * b.2) (a.2 * b.1)

/-- The 64 bits of the interchange format. -/
def bits (x : Binary64) : Nat :=
  (if x.negative then Nat.pow 2 63 else 0) +
    if x.significand < Nat.pow 2 52 then x.significand
    else (x.exponent + 1075).toNat * Nat.pow 2 52 + (x.significand - Nat.pow 2 52)

end Binary64

end EventSim
