import EventSim.Proofs.Kernel.Accounts
import EventSim.Proofs.Kernel.Liveness

/-!
# Delays

The present is never before the start of virtual time and no stored event is due before the present.
So a delay is accepted if and only if it is not negative and does not lead past the greatest time
(`Sound.book_spec`), and **the present and the delay that is left of a live handle add up to the
time that its event is due** (`Sound.delayLeft_eq_due`), which the handle alone determines.
-/

namespace EventSim

variable {α : Type}

/-- When the event of a live handle is due: a teardown event at the end of time. -/
def Handle.due (h : Handle) : Time :=
  match h.kind with
  | .timed => h.time
  | .teardown => .greatest

/-- A scheduling call that takes a delay. -/
inductive DelayedCall (α : Type) where
  | schedule (action : α)
  | scheduleUnder (context : Context) (action : α)
  | stop

namespace Time

variable {a b c : Time}

theorem sub_eq_ok : a.sub b = .ok c ↔ b.ticks + c.ticks = a.ticks := by
  have h : a.checkedSub b = some c ↔ c.ticks = a.ticks - b.ticks := ofInt?_eq_some
  have hsum : c.ticks = a.ticks - b.ticks ↔ b.ticks + c.ticks = a.ticks := by omega
  rw [← hsum, ← h, sub]
  cases a.checkedSub b <;> simp

theorem checkedAdd_eq_some : a.checkedAdd b = some c ↔ c.ticks = a.ticks + b.ticks :=
  ofInt?_eq_some

theorem checkedAdd_eq_none :
    a.checkedAdd b = none ↔ a.ticks + b.ticks < minTicks ∨ maxTicks < a.ticks + b.ticks := by
  unfold checkedAdd ofInt?
  split <;> simp <;> omega

end Time

namespace Kernel

variable {k k' : Kernel α} {h : Handle} {r : List (Note α)}

/-- The kernel after a call with a delay, and the handle that the call answers. -/
def book (k : Kernel α) (call : DelayedCall α) (delay : Time) :
    Except SimError (Handle × Kernel α) :=
  match call with
  | .schedule action => k.schedule (.after delay) action
  | .scheduleUnder context action => k.schedule (.under context delay) action
  | .stop => k.stopAfter delay

/-- All calls with a delay store something. -/
theorem exists_insert (k : Kernel α) (call : DelayedCall α) :
    ∃ context payload, ∀ delay, k.book call delay = k.insert context delay payload := by
  cases call with
  | schedule action => exact ⟨_, _, fun _ => rfl⟩
  | scheduleUnder context action => exact ⟨_, _, fun _ => rfl⟩
  | stop => exact ⟨_, _, fun _ => rfl⟩

/-- **The present and the delay that is left of a live handle add up to the time that its event is
due.** -/
theorem Sound.delayLeft_eq_due (s : k.Sound) (hk : k.Knows h) (hl : k.isExpired h = false) :
    ∃ left, k.delayLeft h = .ok (.ok left) ∧ 0 ≤ left.ticks ∧
      k.now.ticks + left.ticks = h.due.ticks := by
  have hdue : k.now ≤ h.due := by
    have hu := (isExpired_eq_false.1 hl).2
    unfold Handle.due
    cases ht : h.kind with
    | teardown => exact k.now.le_max
    | timed =>
      rw [ht] at hu
      obtain ⟨e, he, heq⟩ := List.mem_map.1 (s.mem_sets.2 (.inl hu))
      exact hk.time ht e he heq ▸ s.due e he
  obtain ⟨left, hleft⟩ := s.delayLeft_of_live hk hl
  refine ⟨left, hleft, ?_⟩
  have hsub : h.due.sub k.now = .ok left := by
    rw [delayLeft, if_neg (by simp [hl])] at hleft
    unfold Handle.due
    cases ht : h.kind <;> simp only [ht] at hleft ⊢ <;> split at hleft <;> simp_all
  rw [Time.le_def] at hdue
  rw [Time.sub_eq_ok] at hsub
  omega

/-- What was just stored is live, and the whole delay is left. -/
theorem delayLeft_store {time delay : Time} (ht : k.now.ticks + delay.ticks = time.ticks)
    (context : Context) (payload : Payload α) :
    (k.store time context payload).2.delayLeft (k.store time context payload).1 =
      .ok (.ok delay) := by
  have hlive : (k.store time context payload).2.isExpired (k.store time context payload).1 =
      false := isExpired_eq_false.2 ⟨rfl, List.mem_cons_self⟩
  have hsub : time.sub k.now = .ok delay := Time.sub_eq_ok.2 ht
  rw [delayLeft, if_neg (by simp [hlive])]
  simp only [store, Handle.ofKey, hsub]

/-- **A delay is accepted if it is not negative and does not lead past the greatest time**, and a
negative one is refused as such. -/
theorem Sound.book_spec (s : k.Sound) (call : DelayedCall α) (delay : Time) :
    if delay.ticks < 0 then k.book call delay = .error (.negativeDelay delay)
    else if delay.ticks ≤ maxTicks - k.now.ticks then
      ∃ h k', k.book call delay = .ok (h, k') ∧ k'.now = k.now ∧
        h.due.ticks = k.now.ticks + delay.ticks ∧ k'.delayLeft h = .ok (.ok delay)
    else k.book call delay = .error (.timeOverflow k.now delay) := by
  obtain ⟨context, payload, hinsert⟩ := k.exists_insert call
  have hbegun := s.begun
  rw [Time.le_def] at hbegun
  have hzero : Time.zero.ticks = 0 := rfl
  rw [hinsert]
  unfold insert
  by_cases hneg : delay.ticks < 0
  · have hn : delay.isNegative = true := by simp [Time.isNegative, hneg]
    rw [if_pos hneg, if_pos hn]
  · have hn : ¬ delay.isNegative = true := by simpa [Time.isNegative] using hneg
    rw [if_neg hneg, if_neg hn]
    cases hsum : k.now.checkedAdd delay with
    | none =>
      have hout := Time.checkedAdd_eq_none.1 hsum
      have hmin : minTicks ≤ 0 := by decide
      rw [if_neg (by omega)]
    | some time =>
      have htime := Time.checkedAdd_eq_some.1 hsum
      have hmax := time.le_max
      rw [if_pos (by omega)]
      exact ⟨_, _, rfl, rfl, htime, delayLeft_store htime.symm context payload⟩

end Kernel

/-- A record in which no number was given twice has one handle for each. -/
theorem eq_of_issued {h g : Handle} {p q : Payload α} {r : List (Note α)}
    (hd : ((acceptedIn r).map Item.uid).Nodup) (hh : .issued h p ∈ r) (hg : .issued g q ∈ r)
    (hu : h.uid = g.uid) : h = g := by
  have hmem {h : Handle} {p : Payload α} {r : List (Note α)} (hm : .issued h p ∈ r) :
      h.uid ∈ (acceptedIn r).map Item.uid := by
    have hitem : (⟨h.uid, p⟩ : Item α) ∈ acceptedIn r :=
      List.mem_flatMap_of_mem hm (List.mem_singleton_self _)
    exact List.mem_map_of_mem hitem
  induction r with
  | nil => cases hh
  | cons n r ih =>
    have hd' : (n.accepted.map Item.uid ++ (acceptedIn r).map Item.uid).Nodup := by
      rwa [← List.map_append]
    obtain ⟨-, hrest, hdisjoint⟩ := List.nodup_append.1 hd'
    rcases List.mem_cons.1 hh with rfl | hh' <;> rcases List.mem_cons.1 hg with hg' | hg'
    · cases hg'
      rfl
    · exact absurd hu (hdisjoint h.uid (List.mem_singleton_self _) g.uid (hmem hg'))
    · subst hg'
      exact absurd hu.symm (hdisjoint g.uid (List.mem_singleton_self _) h.uid (hmem hh'))
    · exact ih hrest hh' hg'

end EventSim
