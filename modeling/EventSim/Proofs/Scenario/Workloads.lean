import EventSim.Proofs.Scenario.Bookings

/-!
# Workloads as timetables

A workload gives the event of each number a delay and a fate.  As a timetable it books all of them;
those that are kept run by their delays and, among equal delays, by their numbers.  **That is the
order that the scenario expects** (`pairwise_runOrder`), the notes do not diverge from it, and the
last event is the one with the largest delay.
-/

namespace EventSim

namespace Random

/-! ### Bounds -/

/-- A draw from `2 ^ 64` values that is scaled down to a thousand. -/
theorem scaled_lt (x : UInt64) : x.toNat * 1000 / Nat.pow 2 64 < 1000 := by
  have hx : x.toNat < Nat.pow 2 64 := x.toNat_lt
  refine Nat.div_lt_of_lt_mul ?_
  exact Nat.mul_lt_mul_of_pos_right hx (by decide)

theorem belowThousand_lt (retries : Nat) (s : Stream) : (s.belowThousand retries).1 < 1000 := by
  induction retries generalizing s with
  | zero => exact scaled_lt s.next.1
  | succ retries ih =>
    rw [Stream.belowThousand]
    dsimp only
    split
    · exact scaled_lt s.next.1
    · exact ih _

theorem delays_lt (n : Nat) (s : Stream) : ∀ d ∈ (delays n s).1, d < 1000 := by
  induction n generalizing s with
  | zero => exact fun d hd => by cases hd
  | succ n ih =>
    exact List.forall_mem_cons.2 ⟨belowThousand_lt retries s, ih _⟩

/-- All delays are below a thousand. -/
theorem workload_lt (seed : UInt64) (n : Nat) : ∀ x ∈ workload seed n, x.1 < 1000 :=
  fun _ hx => delays_lt n _ _ (List.of_mem_zip hx).1

/-- The delays of the events that are kept. -/
def keptDelays (l : List (Nat × Fate)) : List Nat := (l.filter fun x => x.2 = .kept).map Prod.fst

/-- The largest of some delays, zero without any. -/
def longest (ds : List Nat) : Nat := ds.foldl max 0

end Random

namespace Scenario

open EventSim.Random (Fate)

variable {l : List (Nat × Fate)} {i j : Nat}

/-! ### Numbers -/

/-- The delay of the event of a number. -/
def delayOf (l : List (Nat × Fate)) (i : Nat) : Nat := (l.getD i (0, .kept)).1

/-- The fate of the event of a number. -/
def fateOf (l : List (Nat × Fate)) (i : Nat) : Fate := (l.getD i (0, .kept)).2

/-- The numbers of the events that are kept. -/
def keptOf (l : List (Nat × Fate)) : List Nat :=
  (List.range l.length).filter fun i => fateOf l i = .kept

theorem delayOf_lt (hl : ∀ x ∈ l, x.1 < 1000) (i : Nat) : delayOf l i < 1000 := by
  rw [delayOf, List.getD_eq_getElem?_getD]
  cases hx : l[i]? with
  | none => exact Nat.zero_lt_succ _
  | some x => exact hl x (List.mem_of_getElem? hx)

theorem zipIdx_eq (l : List (Nat × Fate)) :
    l.zipIdx = (List.range l.length).map fun i => ((delayOf l i, fateOf l i), i) := by
  refine List.ext_getElem (by simp) fun i hi _ => ?_
  have hlt : i < l.length := by simpa using hi
  simp [delayOf, fateOf, hlt]

theorem keptDelays_eq (l : List (Nat × Fate)) :
    Random.keptDelays l = (keptOf l).map (delayOf l) := by
  have hl : l = (List.range l.length).map fun i => (delayOf l i, fateOf l i) := by
    have hz := congrArg (List.map Prod.fst) (zipIdx_eq l)
    rw [List.zipIdx_map_fst, List.map_map] at hz
    exact hz
  rw [Random.keptDelays]
  conv_lhs => rw [hl]
  rw [List.filter_map, List.map_map]
  rfl

/-! ### The expected order -/

/-- Whether a pair of a delay and a number is expected before another one or is that one. -/
def precedes (a b : Nat × Nat) : Bool := a.1 < b.1 || (a.1 == b.1 && a.2 ≤ b.2)

theorem precedes_iff {a b : Nat × Nat} :
    precedes a b = true ↔ a.1 < b.1 ∨ a.1 = b.1 ∧ a.2 ≤ b.2 := by
  simp [precedes]

theorem expectedRun_eq (l : List (Nat × Fate)) :
    expectedRun l = ((keptOf l).map fun i => (delayOf l i, i)).mergeSort precedes := by
  have hkept (is : List Nat) :
      (is.map fun i => ((delayOf l i, fateOf l i), i)).filterMap
          (fun x => if x.1.2 = .kept then some (x.1.1, x.2) else none) =
        (is.filter fun i => fateOf l i = .kept).map fun i => (delayOf l i, i) := by
    induction is with
    | nil => rfl
    | cons i is ih =>
      rw [List.map_cons, List.filterMap_cons, ih]
      by_cases hf : fateOf l i = .kept <;> simp [hf]
  rw [expectedRun, zipIdx_eq, keptOf, ← hkept]
  rfl

/-- The numbers of the events that are kept, in the order in which they are expected. -/
def runOrder (l : List (Nat × Fate)) : List Nat := (expectedRun l).map Prod.snd

theorem perm_expectedRun (l : List (Nat × Fate)) :
    (expectedRun l).Perm ((keptOf l).map fun i => (delayOf l i, i)) := by
  rw [expectedRun_eq]
  exact List.mergeSort_perm _ _

theorem perm_runOrder (l : List (Nat × Fate)) : (runOrder l).Perm (keptOf l) := by
  have hp := (perm_expectedRun l).map Prod.snd
  rw [List.map_map] at hp
  exact hp.trans (.of_eq (List.map_id _))

theorem expectedRun_eq_map (l : List (Nat × Fate)) :
    expectedRun l = (runOrder l).map fun i => (delayOf l i, i) := by
  rw [runOrder, List.map_map]
  refine (List.map_id _).symm.trans (List.map_congr_left fun x hx => ?_)
  obtain ⟨i, -, rfl⟩ := List.mem_map.1 ((perm_expectedRun l).mem_iff.1 hx)
  rfl

/-- **Events are expected by their delays and, among equal delays, by their numbers.** -/
theorem pairwise_runOrder (l : List (Nat × Fate)) :
    (runOrder l).Pairwise fun i j =>
      delayOf l i < delayOf l j ∨ delayOf l i = delayOf l j ∧ i < j := by
  have hsorted : (expectedRun l).Pairwise fun a b => precedes a b = true := by
    rw [expectedRun_eq]
    refine List.pairwise_mergeSort (fun a b c hab hbc => ?_) (fun a b => ?_) _
    · rw [precedes_iff] at hab hbc ⊢
      omega
    · rw [Bool.or_eq_true, precedes_iff, precedes_iff]
      omega
  rw [expectedRun_eq_map, List.pairwise_map] at hsorted
  have hnodup : (runOrder l).Nodup :=
    (perm_runOrder l).nodup_iff.2 (List.nodup_range.filter _)
  refine (hsorted.and hnodup).imp fun ⟨hle, hne⟩ => ?_
  rw [precedes_iff] at hle
  dsimp only at hle
  omega

/-! ### The timetable -/

theorem zero_le_ticks (n : Nat) : Time.zero ≤ ticks n := by
  show (0 : Int) ≤ max minTicks (min n maxTicks)
  unfold minTicks maxTicks
  omega

theorem ticks_ticks {n : Nat} (h : n < 1000) : (ticks n).ticks = n :=
  Time.clamp_of_inRange (by unfold minTicks; omega) (by unfold maxTicks; omega)

/-- Every event notes down its time and its number. -/
def timetable (l : List (Nat × Fate)) : Timetable where
  due i := ticks (delayOf l i)
  notes i := [.nowAnd i]
  zero_le _ := zero_le_ticks _

theorem pairwise_timetable (hl : ∀ x ∈ l, x.1 < 1000) :
    ((runOrder l).map (timetable l).event).Pairwise fun x y => x.key.Before y.key := by
  rw [List.pairwise_map]
  refine (pairwise_runOrder l).imp fun {i j} h => ?_
  have hi : ((timetable l).due i).ticks = delayOf l i := ticks_ticks (delayOf_lt hl i)
  have hj : ((timetable l).due j).ticks = delayOf l j := ticks_ticks (delayOf_lt hl j)
  rw [EventKey.before_iff]
  show ((timetable l).due i).ticks < ((timetable l).due j).ticks ∨
    ((timetable l).due i).ticks = ((timetable l).due j).ticks ∧ i + 1 < j + 1
  rw [hi, hj]
  omega

/-- The notes do not diverge from what is expected. -/
theorem divergence_account (hl : ∀ x ∈ l, x.1 < 1000) (is : List Nat) (n : Nat) :
    divergence n ((timetable l).account is) (is.map fun i => (delayOf l i, i)) = none := by
  induction is generalizing n with
  | nil => rfl
  | cons i is ih =>
    have hi : ((timetable l).due i).ticks = delayOf l i := ticks_ticks (delayOf_lt hl i)
    show (if _ ∧ _ then divergence (n + 1) _ _ else some n) = none
    rw [if_pos ⟨hi, rfl⟩]
    exact ih (n + 1)

theorem length_account (l : List (Nat × Fate)) (is : List Nat) :
    ((timetable l).account is).length = is.length := by
  rw [Timetable.account, List.length_flatMap]
  simp [timetable]

/-- What the events note is what is expected. -/
theorem follows_account (hl : ∀ x ∈ l, x.1 < 1000) (replies : List Reply) :
    follows (expectedRun l) (.observations ((timetable l).account (runOrder l)) :: replies) =
      none := by
  have hlen : ((timetable l).account (runOrder l)).length = (expectedRun l).length := by
    rw [length_account, expectedRun_eq_map, List.length_map]
  rw [follows, if_neg (not_not_intro hlen)]
  conv_lhs => rw [expectedRun_eq_map]
  rw [divergence_account hl]

/-! ### The last event -/

/-- The last of some ascending numbers is the greatest. -/
theorem foldl_last_eq_max {a : Nat} {ds : List Nat} (h : (a :: ds).Pairwise (· ≤ ·)) :
    ds.foldl (fun _ d => d) a = ds.foldl max a := by
  induction ds generalizing a with
  | nil => rfl
  | cons d ds ih =>
    obtain ⟨hhead, htail⟩ := List.pairwise_cons.1 h
    have hle : a ≤ d := hhead d List.mem_cons_self
    rw [List.foldl_cons, List.foldl_cons, ih htail, Nat.max_eq_right hle]

theorem lastTime_map (T : Timetable) (f : Nat → Nat) (hf : ∀ i, T.due i = ticks (f i)) (a : Nat)
    (is : List Nat) : Kernel.lastTime (ticks a) (is.map T.event) =
      ticks ((is.map f).foldl (fun _ d => d) a : Nat) := by
  induction is generalizing a with
  | nil => rfl
  | cons i is ih =>
    show Kernel.lastTime (T.due i) (is.map T.event) = _
    rw [hf]
    exact ih (f i)

/-- The last event that is expected has the largest delay of those that are kept. -/
theorem lastTime_runOrder (l : List (Nat × Fate)) :
    Kernel.lastTime .zero ((runOrder l).map (timetable l).event) =
      ticks (Random.longest (Random.keptDelays l)) := by
  have hzero : Time.zero = ticks ((0 : Nat) : Int) := by decide
  have hsorted : (0 :: (runOrder l).map (delayOf l)).Pairwise (· ≤ ·) := by
    refine List.pairwise_cons.2 ⟨fun _ _ => Nat.zero_le _, ?_⟩
    rw [List.pairwise_map]
    exact (pairwise_runOrder l).imp fun h => by omega
  have hperm : ((runOrder l).map (delayOf l)).Perm (Random.keptDelays l) := by
    rw [keptDelays_eq]
    exact (perm_runOrder l).map _
  rw [hzero, lastTime_map (timetable l) (delayOf l) fun _ => rfl, foldl_last_eq_max hsorted,
    hperm.foldl_eq, Random.longest]

end Scenario

end EventSim
