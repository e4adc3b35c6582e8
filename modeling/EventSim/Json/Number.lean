import EventSim.Json.Fault
import EventSim.Number.Decimal

/-! # JSON numbers

A number without point and exponent that fits in 64 bits is an integer; every other one is a
binary64 number. Its digits are gathered in one 64-bit word as far as they fit, the others count as
a power of ten, and the power is applied in one or two rounded steps. The negative zero is a
binary64 number too.
-/

namespace EventSim.Json

/-- A number as it is read. -/
inductive Number where
  | integer (n : Int)
  | float (x : Binary64)

/-- The greatest number of 64 bits. -/
def wordMax : Nat := Nat.pow 2 64 - 1

/-- The greatest exponent that is read exactly. -/
def exponentMax : Nat := Nat.pow 2 31 - 1

/-- The value of a decimal digit. -/
def digitValue (c : Char) : Nat := c.toNat - 48

/-- The text starts with a digit. -/
def startsWithDigit (s : List Char) : Bool := s.head?.any Char.isDigit

/-- The digits at the front gathered into `word` while the result is at most `limit`: the result,
the number of digits taken, and what follows them. -/
def gather (limit word : Nat) : List Char → Nat × Nat × List Char
  | [] => (word, 0, [])
  | c :: rest =>
    if c.isDigit ∧ word * 10 + digitValue c ≤ limit then
      let r := gather limit (word * 10 + digitValue c) rest
      (r.1, r.2.1 + 1, r.2.2)
    else (word, 0, c :: rest)

/-- A power of ten. -/
def tenTo (k : Nat) : Binary64 := Binary64.ofRatio false (Nat.pow 10 k) 1

/-- `x` divided by `10 ^ k`, in steps of 308 places until it vanishes. -/
def divideDown : Nat → Binary64 → Nat → Binary64
  | 0, x, _ => x
  | steps + 1, x, k =>
    if k ≤ 308 then x.div (tenTo k)
    else if x.isZero then x
    else divideDown steps (x.div (tenTo 308)) (k - 308)

/-- `word * 10 ^ e`. Three steps down take every word to zero. -/
def scaleWord (positive : Bool) (word : Nat) (e : Int) : Except Fault Binary64 :=
  let x := Binary64.ofRatio false word 1
  let signed (y : Binary64) : Binary64 := if positive then y else y.neg
  if e < 0 then .ok (signed (divideDown 4 x e.natAbs))
  else if e ≤ 308 then
    let y := x.mul (tenTo e.toNat)
    if y.isInfinite then .error .numberOutOfRange else .ok (signed y)
  else if x.isZero then .ok (signed x)
  else .error .numberOutOfRange

/-- The exponent after its letter, for a number whose digits stand for `word * 10 ^ e`. -/
def readExponent (positive : Bool) (word : Nat) (e : Int) (s : List Char) :
    Except Fault (Number × List Char) :=
  let (up, s) := match s with
    | '+' :: rest => (true, rest)
    | '-' :: rest => (false, rest)
    | rest => (true, rest)
  if s.isEmpty then .error (.endOfText .value)
  else if !startsWithDigit s then .error .invalidNumber
  else
    let (power, _, rest) := gather exponentMax 0 s
    if startsWithDigit rest then
      if word ≠ 0 ∧ up then .error .numberOutOfRange
      else .ok (.float ⟨!positive, 0, Binary64.leastExponent⟩, rest.dropWhile Char.isDigit)
    else do
      let x ← scaleWord positive word (if up then e + power else e - power)
      .ok (.float x, rest)

/-- The end of a number that is no integer: an exponent or nothing. -/
def finishFloat (positive : Bool) (word : Nat) (e : Int) (s : List Char) :
    Except Fault (Number × List Char) :=
  match s with
  | 'e' :: rest | 'E' :: rest => readExponent positive word e rest
  | rest => do
    let x ← scaleWord positive word e
    .ok (.float x, rest)

/-- The places after the point, for a number whose digits so far stand for `word * 10 ^ e`. -/
def readFraction (positive : Bool) (word : Nat) (e : Int) (s : List Char) :
    Except Fault (Number × List Char) :=
  let (word, taken, rest) := gather wordMax word s
  if startsWithDigit rest then
    finishFloat positive word (e - taken) (rest.dropWhile Char.isDigit)
  else if taken = 0 then
    if rest.isEmpty then .error (.endOfText .value) else .error .invalidNumber
  else finishFloat positive word (e - taken) rest

/-- What follows the digits before the point, all of which are in `word`. -/
def finishNumber (positive : Bool) (word : Nat) (s : List Char) :
    Except Fault (Number × List Char) :=
  match s with
  | '.' :: rest => readFraction positive word 0 rest
  | 'e' :: rest | 'E' :: rest => readExponent positive word 0 rest
  | rest =>
    if positive then .ok (.integer word, rest)
    else if word = 0 ∨ Nat.pow 2 63 < word then .ok (.float (.ofRatio true word 1), rest)
    else .ok (.integer (-word), rest)

/-- A number after its sign. -/
def readNumber (positive : Bool) (s : List Char) : Except Fault (Number × List Char) :=
  match s with
  | [] => .error (.endOfText .value)
  | '0' :: rest =>
    if startsWithDigit rest then .error .invalidNumber else finishNumber positive 0 rest
  | rest =>
    if !startsWithDigit rest then .error .invalidNumber
    else
      let (word, _, rest) := gather wordMax 0 rest
      if startsWithDigit rest then
        let extra := (rest.takeWhile Char.isDigit).length
        match rest.dropWhile Char.isDigit with
        | '.' :: rest => readFraction positive word extra rest
        | rest => finishFloat positive word extra rest
      else finishNumber positive word rest

/-- What follows the digits and the exponent of a number that nobody looks at. -/
def skipExponent (s : List Char) : Except Fault (List Char) :=
  let s := match s with
    | '+' :: rest | '-' :: rest => rest
    | rest => rest
  if startsWithDigit s then .ok (s.dropWhile Char.isDigit) else .error .invalidNumber

/-- What follows a number that nobody looks at, after its sign. -/
def skipNumber (s : List Char) : Except Fault (List Char) :=
  if !startsWithDigit s then .error .invalidNumber
  else
    let rest := match s with
      | '0' :: rest => rest
      | rest => rest.dropWhile Char.isDigit
    match rest with
    | '.' :: rest =>
      if !startsWithDigit rest then .error .invalidNumber
      else
        match rest.dropWhile Char.isDigit with
        | 'e' :: rest | 'E' :: rest => skipExponent rest
        | rest => .ok rest
    | 'e' :: rest | 'E' :: rest => skipExponent rest
    | rest => if startsWithDigit rest then .error .invalidNumber else .ok rest

end EventSim.Json
