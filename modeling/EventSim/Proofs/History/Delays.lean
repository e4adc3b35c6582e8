import EventSim.Proofs.History.Accounts
import EventSim.Proofs.History.Handles
import EventSim.Proofs.Kernel.Delays
import EventSim.Proofs.Machine.Panics

/-!
# Delays over the life of a kernel

`Permitted.delays` puts together what holds of time in every state of a lawful session.  Nothing has
panicked about time and nothing will; a delay is accepted exactly if it is not negative and the
clock can hold the time that it leads to; and **the present and the delay that is left of a live
handle add up to one time, which is the time at which its event starts if it does.**
-/

namespace EventSim

namespace History

open Machine

variable {environment : Option String} {l older : List Move} {id : KernelId} {k : Kernel Action}
  {h : Handle} {x : Move} {e : Event (Payload Action)}

/-- A timed event starts under the key of its handle. -/
theorem Permitted.key_of_started (hl : Permitted Command.Lawful environment l)
    (hk : (after environment l).world.kernel? id = some k) (hh : Returned environment l h)
    (hi : k.Issued h) {newer : List Move} (hs : l = newer ++ x :: older)
    (hm : (id, .started e) ∈ (after environment older).notes x) (hu : e.key.uid = h.uid) :
    h = .ofKey (some id) e.key := by
  have hsuffix : x :: older <:+ l := ⟨newer, hs.symm⟩
  have hx := hl.suffix hsuffix
  obtain ⟨payload, hissued⟩ := hh.issued (hl.id_eq hk) hi
  have hrecord := record_of_turn hm trivial
  obtain ⟨k', hk'⟩ := hx.kernel_of_turn hm trivial
  have hsource := (hx.sourced hk').started e (record environment id older)
    (hrecord ▸ List.suffix_refl _)
  rw [hx.id_eq hk'] at hsource
  have hold : record environment id older <:+ record environment id l :=
    record_suffix environment id ((List.suffix_cons x older).trans hsuffix)
  exact eq_of_issued (hl.accounted hk).distinct hissued (hold.subset hsource) hu.symm

/-- **Time is kept without a panic, and delays are exact.**  After any lawful history no call has
ended in a panic about virtual time.  Of every kernel the following holds.

* Its run loop is not handed an event of the past.
* A delay is accepted exactly if it is not negative and at most what the greatest time is away; a
  negative one is refused as such, and one that is accepted is what is left right after the call.
* Asked for the delay that is left of a handle that some kernel has answered, or of the handle of no
  kernel, it refuses an expired handle.  Of a live one it answers a delay that is not negative and
  that the present adds up with to the time that the event is due.
* An event of a handle that it has issued starts at that time. -/
theorem Permitted.delays (hl : Permitted Command.Lawful environment l) :
    (∀ r ∈ (after environment l).result, Timely r) ∧
    ∀ id k, (after environment l).world.kernel? id = some k →
      (∀ payload k', k.dequeue ≠ .past payload k') ∧
      (∀ call delay,
        if delay.ticks < 0 then k.book call delay = .error (.negativeDelay delay)
        else if delay.ticks ≤ maxTicks - k.now.ticks then
          ∃ h k', k.book call delay = .ok (h, k') ∧ k'.now = k.now ∧
            h.due.ticks = k.now.ticks + delay.ticks ∧ k'.delayLeft h = .ok (.ok delay)
        else k.book call delay = .error (.timeOverflow k.now delay)) ∧
      ∀ h, Returned environment l h →
        (if k.isExpired h then k.delayLeft h = .ok (.error (.expiredHandle h.uid))
        else ∃ left, k.delayLeft h = .ok (.ok left) ∧ 0 ≤ left.ticks ∧
          k.now.ticks + left.ticks = h.due.ticks) ∧
        ∀ newer x older e, l = newer ++ x :: older →
          (id, .started e) ∈ (after environment older).notes x → k.Issued h → e.key.uid = h.uid →
          h.kind = .timed ∧ e.key = h.key ∧
            ∃ k', (after environment (x :: older)).world.kernel? id = some k' ∧ k'.now = h.due := by
  refine ⟨hl.reached.punctual, fun id k hk => ?_⟩
  have s := hl.sound hk
  refine ⟨fun _ _ => s.not_past, s.book_spec, fun h hh => ⟨?_, ?_⟩⟩
  · split
    · rename_i hx
      exact Kernel.delayLeft_of_isExpired hx
    · rename_i hx
      rw [Bool.not_eq_true] at hx
      obtain ⟨payload, hm⟩ := hh.issued (hl.id_eq hk) (Kernel.isExpired_eq_false.1 hx).1
      exact s.delayLeft_eq_due ((hl.tracked hk).known h payload hm).2 hx
  · intro newer x older e hs hm hi hu
    obtain rfl := hl.key_of_started hk hh hi hs hm hu
    have hx : Permitted Command.Lawful environment (x :: older) := hl.suffix ⟨newer, hs.symm⟩
    obtain ⟨k', hk'⟩ := hx.kernel_of_turn hm trivial
    have hd := hx.dated hk'
    rw [record_of_turn hm trivial] at hd
    exact ⟨rfl, rfl, k', hk', hd.now⟩

/-- An event has started at 1; one is due at 5, and a teardown event is registered. -/
def halfwayRun : List Move :=
  let t : Target := .kernel (.numbered 0)
  [.step, .call (.run t),
    .call (.schedule t .atTeardown (.numbered 3) (.silent [])),
    .call (.schedule t (.after (.clamp 5)) (.numbered 2) (.silent [])),
    .call (.schedule t (.after (.clamp 1)) (.numbered 1) (.silent [])),
    .call (.build none (.builtIn 0))]

theorem permitted_halfwayRun : Permitted Command.Lawful none halfwayRun := by
  simp only [halfwayRun, Permitted, Allows]
  refine ⟨trivial, ⟨rfl, ?_⟩, ⟨rfl, ?_⟩, ⟨rfl, ?_⟩, ⟨rfl, ?_⟩, ⟨rfl, ?_⟩, trivial⟩
  all_goals simp [Command.All, Action.silent, Action.All, allOf, Command.Lawful]

/-- The handle of the event that is due at 5. -/
def dueAtFive : Handle := .ofKey (some 0) ⟨.clamp 5, 2, noContext⟩

/-- The handle of the teardown event. -/
def dueAtTeardown : Handle := .ofTeardown (some 0) .zero 3

/-- Both handles are live, and a stop cannot be asked for after the greatest delay. -/
theorem delays_halfwayRun : ∃ k, (after none halfwayRun).world.kernel? 0 = some k ∧
    k.now.ticks = 1 ∧
    (∃ left, k.delayLeft dueAtFive = .ok (.ok left) ∧ 1 + left.ticks = 5) ∧
    (∃ left, k.delayLeft dueAtTeardown = .ok (.ok left) ∧ 1 + left.ticks = maxTicks) ∧
    k.book .stop .greatest = .error (.timeOverflow k.now .greatest) := by
  obtain ⟨k, hk, hnow, hfive, hteardown⟩ :
      ∃ k, (after none halfwayRun).world.kernel? 0 = some k ∧ k.now.ticks = 1 ∧
        k.isExpired dueAtFive = false ∧ k.isExpired dueAtTeardown = false :=
    ⟨_, rfl, rfl, rfl, rfl⟩
  obtain ⟨-, hall⟩ := permitted_halfwayRun.delays
  obtain ⟨-, hbook, hleft⟩ := hall 0 k hk
  have hreturned : Returned none halfwayRun dueAtFive :=
    .inr ⟨0, .act (.silent []), List.mem_of_getElem? (i := 2) rfl⟩
  have hreturned' : Returned none halfwayRun dueAtTeardown :=
    .inr ⟨0, .act (.silent []), List.mem_of_getElem? (i := 1) rfl⟩
  have hsum := (hleft dueAtFive hreturned).1
  have hsum' := (hleft dueAtTeardown hreturned').1
  rw [if_neg (by simp [hfive]), hnow] at hsum
  rw [if_neg (by simp [hteardown]), hnow] at hsum'
  obtain ⟨left, hl, -, hs⟩ := hsum
  obtain ⟨left', hl', -, hs'⟩ := hsum'
  have hstop := hbook .stop .greatest
  rw [if_neg (by decide), hnow, if_neg (by decide)] at hstop
  exact ⟨k, hk, hnow, ⟨left, hl, hs⟩, ⟨left', hl', hs'⟩, hstop⟩

end History

end EventSim
