import EventSim.Random.ChaCha

/-! # Random workloads

A seed and a number of events determine a workload: first a delay below a thousand for each event,
then the fate of each. One event in five does not run; of those a half is cancelled and a half
removed.
-/

namespace EventSim.Random

/-- What becomes of a scheduled event. -/
inductive Fate where
  | kept
  | cancelled
  | removed
  deriving DecidableEq, Repr

/-- How often a draw is repeated at most, see `Stream.belowThousand`. -/
def retries : Nat := 128

/-- One chance in five. -/
def oneInFive : Nat := 3689348814741910528

/-- One chance in two. -/
def oneInTwo : Nat := Nat.pow 2 63

/-- The delays of `n` events. -/
def delays : Nat → Stream → List Nat × Stream
  | 0, s => ([], s)
  | n + 1, s =>
    let (d, s) := s.belowThousand retries
    let (ds, s) := delays n s
    (d :: ds, s)

/-- The fate of one event. -/
def fate (s : Stream) : Fate × Stream :=
  match s.chance oneInFive with
  | (false, s) => (.kept, s)
  | (true, s) =>
    match s.chance oneInTwo with
    | (true, s) => (.cancelled, s)
    | (false, s) => (.removed, s)

/-- The fates of `n` events. -/
def fates : Nat → Stream → List Fate
  | 0, _ => []
  | n + 1, s =>
    let (f, s) := fate s
    f :: fates n s

/-- The delays and fates of `n` events. -/
def workload (seed : UInt64) (n : Nat) : List (Nat × Fate) :=
  let (ds, s) := delays n (.ofSeed seed)
  ds.zip (fates n s)

@[simp] theorem length_delays (n : Nat) (s : Stream) : (delays n s).1.length = n := by
  induction n generalizing s with
  | zero => rfl
  | succ n ih => exact congrArg (· + 1) (ih _)

@[simp] theorem length_fates (n : Nat) (s : Stream) : (fates n s).length = n := by
  induction n generalizing s with
  | zero => rfl
  | succ n ih => exact congrArg (· + 1) (ih _)

@[simp] theorem length_workload (seed : UInt64) (n : Nat) : (workload seed n).length = n := by
  rw [workload, List.length_zip, length_delays, length_fates, Nat.min_self]

end EventSim.Random
