/-! # The random stream

A seed of 64 bits determines an endless stream of words: the ChaCha function with eight rounds,
keyed with eight words that a permuted congruential generator derives from the seed, applied to a
block counter that starts at zero. `Stream.next` takes two words, the low one first. Numbers below
a bound are drawn by multiplication: the high word of the product is the number, and the draw is
repeated while the low word lies in the part that would make the numbers uneven.
-/

namespace EventSim.Random

/-- The 32-bit word turned left by `n` bits. -/
def turn (x : UInt32) (n : UInt32) : UInt32 := (x <<< n) ||| (x >>> (32 - n))

/-! ### The key -/

/-- The state of the key generator after one step. -/
def keyStep (s : UInt64) : UInt64 := s * 6364136223846793005 + 11634580027462260723

/-- The word that a state of the key generator gives. -/
def keyWord (s : UInt64) : UInt32 :=
  let x := (((s >>> 18) ^^^ s) >>> 27).toUInt32
  let r := (s >>> 59).toUInt32
  (x >>> r) ||| (x <<< ((32 - r) % 32))

/-- The next `n` words of the key generator. -/
def keyWords : Nat → UInt64 → List UInt32
  | 0, _ => []
  | n + 1, s => keyWord (keyStep s) :: keyWords n (keyStep s)

/-! ### Blocks -/

/-- One quarter round on four positions of a block. -/
def quarter (b : Array UInt32) (i j k l : Nat) : Array UInt32 :=
  let a := b.getD i 0 + b.getD j 0
  let d := turn (b.getD l 0 ^^^ a) 16
  let c := b.getD k 0 + d
  let e := turn (b.getD j 0 ^^^ c) 12
  let a := a + e
  let d := turn (d ^^^ a) 8
  let c := c + d
  let e := turn (e ^^^ c) 7
  (((b.setIfInBounds i a).setIfInBounds j e).setIfInBounds k c).setIfInBounds l d

/-- A round on the columns and a round on the diagonals. -/
def doubleRound (b : Array UInt32) : Array UInt32 :=
  let b := quarter b 0 4 8 12
  let b := quarter b 1 5 9 13
  let b := quarter b 2 6 10 14
  let b := quarter b 3 7 11 15
  let b := quarter b 0 5 10 15
  let b := quarter b 1 6 11 12
  let b := quarter b 2 7 8 13
  quarter b 3 4 9 14

/-- The words that start every block. -/
def constants : List UInt32 := [0x61707865, 0x3320646e, 0x79622d32, 0x6b206574]

/-- The block of a key and a counter. -/
def block (key : List UInt32) (counter : UInt64) : List UInt32 :=
  let start := constants ++ key ++ [counter.toUInt32, (counter >>> 32).toUInt32, 0, 0]
  let mixed := doubleRound (doubleRound (doubleRound (doubleRound start.toArray)))
  List.zipWith (· + ·) start mixed.toList

/-! ### The stream -/

/-- A place in the stream of a key: the words left of the present block and the counter of the
next. -/
structure Stream where
  key : List UInt32
  counter : UInt64
  left : List UInt32

namespace Stream

/-- The start of the stream of a seed. -/
def ofSeed (seed : UInt64) : Stream := ⟨keyWords 8 seed, 0, []⟩

/-- The stream with a block at hand. -/
def refill (s : Stream) : Stream :=
  match s.left with
  | _ :: _ :: _ => s
  | _ => { s with counter := s.counter + 1, left := block s.key s.counter }

/-- The next 64 bits. -/
def next (s : Stream) : UInt64 × Stream :=
  let s := s.refill
  match s.left with
  | low :: high :: rest => (low.toUInt64 ||| (high.toUInt64 <<< 32), { s with left := rest })
  | _ => (0, s)

/-- A number below a thousand. A draw is accepted if the low word of its product is in the even
part, as about 98 of 100 draws are. The generator repeats other draws without bound; here they are
repeated `retries` times at most, and then the last one stands. -/
def belowThousand : Nat → Stream → Nat × Stream
  | 0, s =>
    let (x, s) := s.next
    (x.toNat * 1000 / Nat.pow 2 64, s)
  | retries + 1, s =>
    let (x, s) := s.next
    if x.toNat * 1000 % Nat.pow 2 64 < 1000 * Nat.pow 2 54 then (x.toNat * 1000 / Nat.pow 2 64, s)
    else belowThousand retries s

/-- Whether the next 64 bits, as a number, are below `limit`: true `limit` times in `2 ^ 64`. -/
def chance (limit : Nat) (s : Stream) : Bool × Stream :=
  let (x, s) := s.next
  (decide (x.toNat < limit), s)

end Stream

end EventSim.Random
