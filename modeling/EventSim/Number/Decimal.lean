import EventSim.Number.Binary64

/-! # Decimal texts of binary64 numbers

Two ways to write a binary64 number in decimal. `fixedText` writes a given number of places of
the exact value, a tie to the even digit. `shortestText` writes the fewest digits that read back,
and of those the nearest to the exact value; `ShortestForm` says from where to where the point is
written in place rather than as a power of ten.
-/

namespace EventSim

/-- The decimal digits of `n`, with zeros in front up to `width` digits. -/
def paddedDigits (width n : Nat) : List Char :=
  let digits := Nat.toDigits 10 n
  List.replicate (width - digits.length) '0' ++ digits

namespace Binary64

/-- The sign if it is negative, the whole part, a point and `places` digits. -/
def fixedText (places : Nat) (x : Binary64) : List Char :=
  let r := x.ratio
  let n := divNearest (r.1 * Nat.pow 10 places) r.2
  (if x.negative then ['-'] else []) ++ Nat.toDigits 10 (n / Nat.pow 10 places) ++
    '.' :: paddedDigits places (n % Nat.pow 10 places)

/-- `num / den * 10 ^ s` as a quotient of natural numbers. -/
def decimalScaled (num den : Nat) (s : Int) : Nat × Nat :=
  if 0 ≤ s then (num * Nat.pow 10 s.toNat, den) else (num, den * Nat.pow 10 (-s).toNat)

/-- The power of ten of the first digit of a positive number. -/
def leadingPower (num den : Nat) : Int :=
  if den ≤ num then ((Nat.toDigits 10 (num / den)).length : Int) - 1
  else -(((List.range 400).find? fun j => den ≤ num * Nat.pow 10 j).getD 0 : Int)

/-- The digits with `count` places after the first one nearest to a positive number, of those
that read back as `x`. -/
def digitsReadingBack (x : Binary64) (count : Nat) : Option Nat :=
  let r := x.ratio
  let s : Int := count - leadingPower r.1 r.2
  let q := decimalScaled r.1 r.2 s
  let low := q.1 / q.2
  let readsBack (d : Nat) : Bool :=
    let v := decimalScaled d 1 (-s)
    ofRatio x.negative v.1 v.2 == x
  let near := divNearest q.1 q.2
  let far := if near = low then low + 1 else low
  if readsBack near then some near else if readsBack far then some far else none

/-- The fewest digits that read back as a number that is not zero, and the power of ten of the
first one. -/
def shortest (x : Binary64) : List Char × Int :=
  let r := x.ratio
  let p := leadingPower r.1 r.2
  match (List.range 17).findSome? fun c => (digitsReadingBack x c).map fun d => (d, c) with
  | none => (['0'], 0)
  | some (d, c) =>
    let digits := Nat.toDigits 10 d
    let kept := (digits.reverse.dropWhile (· == '0')).reverse
    (kept, p + ((digits.length : Int) - (c + 1)))

/-- How far the point may stand from the digits before a power of ten is written. -/
structure ShortestForm where
  leastPower : Int
  greatestPower : Int
  exponentDigits : Nat

/-- The form in messages: in place from `1e-5` up to below `1e16`, and a signed power of ten of at
least two digits otherwise. -/
def messageForm : ShortestForm := ⟨-5, 15, 2⟩

/-- The shortest text; a whole number keeps one zero after the point. -/
def shortestText (form : ShortestForm) (x : Binary64) : List Char :=
  let sign := if x.negative then ['-'] else []
  if x.isZero then sign ++ ['0', '.', '0']
  else
    let (digits, p) := x.shortest
    if form.leastPower ≤ p ∧ p ≤ form.greatestPower then
      if p < 0 then
        sign ++ ['0', '.'] ++ List.replicate (-p - 1).toNat '0' ++ digits
      else
        let whole := digits.take (p.toNat + 1)
        let fraction := digits.drop (p.toNat + 1)
        sign ++ whole ++ List.replicate (p.toNat + 1 - whole.length) '0' ++
          '.' :: (if fraction.isEmpty then ['0'] else fraction)
    else
      sign ++ digits.take 1 ++
        (if digits.length ≤ 1 then [] else '.' :: digits.drop 1) ++
        'e' :: (if p < 0 then '-' else '+') :: paddedDigits form.exponentDigits p.natAbs

end Binary64

end EventSim
