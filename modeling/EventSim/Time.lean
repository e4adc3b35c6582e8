/-! # Virtual time

A time is a signed count of ticks, one tick to a nanosecond, that fits in 64 bits; it serves both
as a point and as a span. The bounds are part of the type, so every operation says what happens at
them: the constructors from coarser units clamp, `checkedAdd` and `checkedSub` refuse, and `add`,
`sub` and `neg` report which operation overflowed.
-/

namespace EventSim

/-- The least tick count. -/
abbrev minTicks : Int := -9223372036854775808

/-- The greatest tick count. -/
abbrev maxTicks : Int := 9223372036854775807

/-- A point or span of virtual time. -/
structure Time where
  ticks : Int
  min_le : minTicks ≤ ticks
  le_max : ticks ≤ maxTicks

/-- The arithmetic operations on times that can leave the range. -/
inductive Overflow where
  | add
  | subtract
  | negate
  deriving DecidableEq, Repr

namespace Time

@[ext] theorem ext {a b : Time} (h : a.ticks = b.ticks) : a = b := by
  cases a; cases b; cases h; rfl

instance : DecidableEq Time := fun a b =>
  decidable_of_iff (a.ticks = b.ticks) ⟨ext, fun h => h ▸ rfl⟩

/-- The time with `n` ticks, if `n` is in range. -/
def ofInt? (n : Int) : Option Time :=
  if h : minTicks ≤ n ∧ n ≤ maxTicks then some ⟨n, h.1, h.2⟩ else none

/-- The time nearest to `n` ticks. -/
def clamp (n : Int) : Time where
  ticks := max minTicks (min n maxTicks)
  min_le := Int.le_max_left ..
  le_max := by unfold minTicks maxTicks; omega

/-- The start of virtual time. -/
def zero : Time := ⟨0, by decide, by decide⟩

/-- The greatest time. -/
def greatest : Time := ⟨maxTicks, by decide, by decide⟩

/-- The least time. -/
def least : Time := ⟨minTicks, by decide, by decide⟩

instance : Inhabited Time := ⟨zero⟩

/-! ### Units -/

/-- `n` microseconds. -/
def ofMicros (n : Int) : Time := clamp (n * 1000)

/-- `n` milliseconds. -/
def ofMillis (n : Int) : Time := clamp (n * 1000000)

/-- `n` seconds. -/
def ofSecs (n : Int) : Time := clamp (n * 1000000000)

/-! ### Order and sign -/

instance : LE Time := ⟨fun a b => a.ticks ≤ b.ticks⟩
instance : LT Time := ⟨fun a b => a.ticks < b.ticks⟩
instance (a b : Time) : Decidable (a ≤ b) := inferInstanceAs (Decidable (a.ticks ≤ b.ticks))
instance (a b : Time) : Decidable (a < b) := inferInstanceAs (Decidable (a.ticks < b.ticks))
instance : Ord Time := ⟨fun a b => compare a.ticks b.ticks⟩

theorem le_def {a b : Time} : a ≤ b ↔ a.ticks ≤ b.ticks := Iff.rfl

theorem lt_def {a b : Time} : a < b ↔ a.ticks < b.ticks := Iff.rfl

/-- Before the start of virtual time, or a span that leads back. -/
def isNegative (a : Time) : Bool := a.ticks < 0

/-- No time at all. -/
def isZero (a : Time) : Bool := a.ticks == 0

/-! ### Arithmetic -/

/-- The sum, unless it leaves the range. -/
def checkedAdd (a b : Time) : Option Time := ofInt? (a.ticks + b.ticks)

/-- The difference, unless it leaves the range. -/
def checkedSub (a b : Time) : Option Time := ofInt? (a.ticks - b.ticks)

/-- The sum of two times that are expected to stay in range. -/
def add (a b : Time) : Except Overflow Time := (a.checkedAdd b).elim (.error .add) .ok

/-- The difference of two times that are expected to stay in range. -/
def sub (a b : Time) : Except Overflow Time := (a.checkedSub b).elim (.error .subtract) .ok

/-- The opposite of a time; the least time has none. -/
def neg (a : Time) : Except Overflow Time := (ofInt? (-a.ticks)).elim (.error .negate) .ok

/-- The sum, held at the bound that it would cross. -/
def saturatingAdd (a b : Time) : Time := clamp (a.ticks + b.ticks)

theorem ofInt?_eq_some {n : Int} {t : Time} : ofInt? n = some t ↔ t.ticks = n := by
  unfold ofInt?
  split
  · rename_i h
    simp only [Option.some.injEq]
    exact ⟨fun h => h ▸ rfl, fun h => ext h.symm⟩
  · rename_i h
    simp only [reduceCtorEq, false_iff]
    intro ht
    exact h ⟨ht ▸ t.min_le, ht ▸ t.le_max⟩

theorem clamp_of_inRange {n : Int} (h : minTicks ≤ n) (g : n ≤ maxTicks) :
    (clamp n).ticks = n := by
  simp only [clamp]
  unfold minTicks maxTicks at *
  omega

/-! ### Text -/

/-- The ticks with their sign always written, and the unit. -/
def text (a : Time) : String :=
  (if a.ticks < 0 then "-" else "+") ++ toString a.ticks.natAbs ++ "ns"

end Time

end EventSim
