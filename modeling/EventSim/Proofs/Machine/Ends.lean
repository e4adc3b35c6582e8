import EventSim.Proofs.Machine.Calls
import EventSim.Proofs.Machine.Dequeues
import EventSim.Proofs.Machine.History
import EventSim.Proofs.World.LiveCalls

/-!
# Running and destroying come to an end

Each step makes a machine lighter, so every call ends, in whatever call it is made, and what pays
for its steps bounds the events that it dequeues (`World.endsWithin_of_pays`).  Two numbers pay.
The reserve of a world, in which the bodies of all stored events count, pays in any state.  In a
session in which handles are only passed on, the bodies of cancelled events never run, and what the
live events have in reserve is enough (`Machine.Lawful.pays_live`).

`World.run_and_destroy_end` draws the conclusion for the two calls that run events: **they end, and
dequeue no more events than were stored at the start and timed scheduling calls occur in the bodies
of what is held**.
-/

namespace EventSim

namespace Machine

variable {m n : Machine} {w : World} {s : List Frame} {r : Option (Except Panic Reply)}
  {c : Command} {counts : KernelId → Bool}

/-! ### Lawful machines -/

/-- The world is sound, and nothing but lawful commands is still to be carried out. -/
structure Lawful (m : Machine) : Prop where
  sound : m.world.Sound
  carries : m.Carries Command.Lawful

theorem Reached.lawful (h : Reached Command.Lawful m) : m.Lawful :=
  ⟨h.sound, h.carries fun _ => Command.Staged.lawful⟩

theorem Lawful.step (h : m.Lawful) : m.step.Lawful := by
  refine ⟨?_, h.carries.step fun _ => Command.Staged.lawful⟩
  obtain ⟨w, stack, result⟩ := m
  cases stack with
  | nil => exact h.sound
  | cons f rest =>
    have hf := h.carries.waiting f List.mem_cons_self
    exact h.sound.evolves ((evolves_step f rest).mono fun _ => hf.lawful)

/-- A lawful command may be called wherever only the journal has changed meanwhile. -/
theorem Lawful.called (h : m.Lawful) (ha : m.world.Aside w) {c : Command}
    (hc : c.All Command.Lawful) : (ofCall w c).Lawful := by
  refine ⟨?_, .ofCall (fun id => World.HoldsAt.aside (h.carries.stored id) ha) hc⟩
  exact (h.sound.aside ha).evolves ((evolves_start c).mono fun _ => hc.self.brings)

/-- What is noted of a deed that a kernel does by itself, and what it uses. -/
theorem note?_of_turn {id : KernelId} {d : Deed Action} {k : Kernel Action} (h : m.Turn id d)
    (hk : m.world.kernel? id = some k) (b : Bool) :
    ∃ n, k.note? d = some n ∧ n.booked = 0 ∧ n.used b = d.used b := by
  have hone : b.toNat * 1 = b.toNat := Nat.mul_one _
  cases h with
  | running _ hk' =>
    cases hk.symm.trans hk'
    cases hd : k.dequeue with
    | idle => exact ⟨.ended, rfl, rfl, rfl⟩
    | skipped payload k' =>
      obtain ⟨e, rest, hp, -⟩ := Kernel.dequeue_eq_skipped hd
      refine ⟨.skipped e, ?_, rfl, hone.symm⟩
      rw [Dequeued.deed, Kernel.note?, hp, Option.map_some]
    | past payload k' =>
      obtain ⟨e, rest, hp, -⟩ := Kernel.dequeue_eq_past hd
      refine ⟨.skipped e, ?_, rfl, hone.symm⟩
      rw [Dequeued.deed, Kernel.note?, hp, Option.map_some]
    | started e k' => exact ⟨.started e, rfl, rfl, congrArg (· + _) hone.symm⟩
  | destroying _ hk' =>
    cases hk.symm.trans hk'
    unfold Kernel.unwinding
    split
    · exact ⟨_, rfl, rfl, (Nat.zero_add _).symm⟩
    · exact ⟨_, rfl, rfl, rfl⟩
  | clearing => exact ⟨_, rfl, rfl, rfl⟩

theorem Lawful.lives (h : m.Lawful) : m.world.Lives (m.notes .step) m.step.world := by
  have s := h.sound
  have hwaiting := h.carries.waiting
  obtain ⟨w, stack, result⟩ := m
  cases stack with
  | nil => exact .refl w
  | cons f rest => exact lives_step s (hwaiting f List.mem_cons_self)

/-- A command that starts books the calls that it makes at once. -/
theorem booked_notes_le_callsAtOnce (w : World) (c : Command) :
    total (fun p => p.2.booked) (w.notes c) ≤ c.callsAtOnce := by
  unfold Command.callsAtOnce
  cases hc : c.drives with
  | true =>
    have hnotes : w.notes c = [] := by cases c <;> first | rfl | cases hc
    rw [hnotes]
    exact Nat.zero_le _
  | false => exact w.booked_notes_le c

/-- A step in which no kernel does anything by itself adds what its call books. -/
theorem Lawful.pays_live_of_call (h : m.Lawful) (ht : m.turn? .step = none)
    (counts : KernelId → Bool) : m.Pays (fun w => w.liveReserve counts) counts := by
  have hbooked : total (fun p => p.2.booked) (m.notes .step) ≤ m.callsMade := by
    rw [notes, callsMade, ht, Option.elim_none, List.append_nil]
    cases m.onset? .step with
    | none => exact Nat.le_refl 0
    | some p => exact booked_notes_le_callsAtOnce p.1 p.2
  unfold Pays
  dsimp only
  rw [dequeues, callsStarted, ht, Option.elim_none, Option.elim_none]
  exact (h.lives.liveReserve_le h.sound counts).trans (Nat.add_le_add_left hbooked _)

/-- What a kernel does by itself is paid for, if the kernel is there at all. -/
theorem Lawful.pays_live_of_turn (h : m.Lawful) {id : KernelId} {d : Deed Action}
    (ht : m.turn? .step = some (id, d)) (counts : KernelId → Bool) :
    m.Pays (fun w => w.liveReserve counts) counts := by
  have hl := h.lives
  have hturn := (turn_cases ht).2
  have honset := (onset?_or_turn? m .step).resolve_right (by simp [ht])
  rw [notes, honset, ht, Option.elim_none, List.nil_append, Option.elim_some] at hl
  unfold Pays
  dsimp only
  rw [used_turn counts m ht]
  cases hk : m.world.kernel? id with
  | some k =>
    obtain ⟨n, hn, hbooked, hused⟩ := note?_of_turn hturn hk (counts id)
    have hpaid := hl.liveReserve_noted h.sound hk hn counts
    rw [hbooked, hused] at hpaid
    exact hpaid.trans (Nat.le_add_right _ _)
  | none =>
    -- only the end of a teardown can be the turn of a kernel that is not there
    have hused : d.used (counts id) = 0 := by
      cases hturn with
      | running _ hk' | destroying _ hk' => cases hk.symm.trans hk'
      | clearing => rfl
    have hnoted : m.world.noted id d = [] := by rw [World.noted, hk]; rfl
    rw [hnoted] at hl
    rw [hused]
    exact (hl.liveReserve_le h.sound counts).trans (Nat.le_add_right _ _)

/-- **What the live events have in reserve pays for every step of a lawful machine.** -/
theorem Lawful.pays_live (h : m.Lawful) (counts : KernelId → Bool) :
    m.Pays (fun w => w.liveReserve counts) counts := by
  cases ht : m.turn? .step with
  | none => exact h.pays_live_of_call ht counts
  | some p => exact h.pays_live_of_turn ht counts

/-! ### Calls in the middle of other calls -/

variable {n : Machine} {s : List Frame} {r : Option (Except Panic Reply)}

theorem onto_of_stack_ne (h : m.Answers) (hne : m.stack ≠ []) :
    m.onto s r = ⟨m.world, m.stack ++ s, r⟩ := by
  obtain ⟨hnone, -⟩ := h.resolve_left fun h => hne h.1
  rw [onto, hnone]

theorem dequeues_onto (h : m.Answers) (hne : m.stack ≠ []) (counts : KernelId → Bool) :
    (m.onto s r).dequeues counts = m.dequeues counts := by
  rw [onto_of_stack_ne h hne]
  obtain ⟨w, stack, result⟩ := m
  cases stack with
  | nil => exact absurd rfl hne
  | cons f rest => cases f <;> rfl

theorem dequeued_succ (hne : m.stack ≠ []) (counts : KernelId → Bool) (i : Nat) :
    m.dequeued counts (i + 1) = m.dequeues counts + m.step.dequeued counts i := by
  have hsteps (j : Nat) : m.steps (j + 1) = m.step.steps j := steps_of_stack_ne hne j
  rw [dequeued, Finset.sum_range_succ', Nat.add_comm]
  simp only [hsteps]
  rfl

/-- What a machine does on top of a stack takes as many steps and dequeues as much. -/
theorem Sees.onto_steps {l : List (Sight × World)} (h : m.Sees l n) (ha : m.Answers)
    (counts : KernelId → Bool) :
    ∃ i, i + n.weight ≤ m.weight ∧ (m.onto s r).steps i = n.onto s r ∧
      (m.onto s r).dequeued counts i = m.dequeued counts i := by
  induction h with
  | refl => exact ⟨0, Nat.le_of_eq (Nat.zero_add _), rfl, rfl⟩
  | @step m n l hne _ ih =>
    -- what lies below is reached only when the machine has come to its answer
    obtain ⟨i, hi, hsteps, hsum⟩ := ih (answers_step ha hne)
    have hstack : (m.onto s r).stack ≠ [] := by
      rw [onto_of_stack_ne ha hne]
      exact List.append_ne_nil_of_left_ne_nil hne s
    rw [onto_step ha hne] at hsteps hsum
    refine ⟨i + 1, ?_, ?_, ?_⟩
    · have := weight_step hne
      omega
    · rw [steps_of_stack_ne hstack, hsteps]
    · rw [dequeued_succ hstack, dequeued_succ hne, hsum, dequeues_onto ha hne]

end Machine

open Machine

/-- However the command is called, it comes to its answer or to a panic after finitely many steps,
which dequeue so many events at most from the kernels that count. -/
def World.EndsWithin (w : World) (c : Command) (counts : KernelId → Bool) (most : Nat) : Prop :=
  ∀ s r, ∃ n ≤ (ofCall w c).weight, (start ⟨w, s, r⟩ c).steps n = resumed s r (w.call c) ∧
    (start ⟨w, s, r⟩ c).dequeued counts n ≤ most

namespace World

variable {m : Machine} {w : World} {c : Command} {counts : KernelId → Bool} {R : World → Nat}

/-- What pays for the steps of a call pays for all that the call dequeues. -/
theorem endsWithin_of_pays (hpays : ∀ i, ((ofCall w c).steps i).Pays R counts)
    (hstart : R (ofCall w c).world ≤ R w + c.callsAtOnce) :
    w.EndsWithin c counts (R w + c.timedCalls) := by
  intro s r
  obtain ⟨n, hn, hsteps, hsum⟩ := (sees_run (ofCall w c)).onto_steps (s := s) (r := r)
    (answers_start (.inl rfl) c) counts
  have honto : (ofCall w c).onto s r = start ⟨w, s, r⟩ c := onto_start c
  rw [honto] at hsteps hsum
  refine ⟨n, Nat.le_of_add_right_le hn, hsteps.trans (onto_run w c s r), ?_⟩
  rw [hsum]
  exact dequeued_ofCall_le hpays hstart n

/-- Every call ends within what is stored and what timed scheduling calls can store. -/
theorem endsWithin (w : World) (c : Command) (counts : KernelId → Bool) :
    w.EndsWithin c counts (w.stored counts + w.heldCalls + c.timedCalls) := by
  have h := endsWithin_of_pays (fun i => pays_reserve ((ofCall w c).steps i) counts)
    (reserve_start c counts)
  rwa [reserve_eq] at h

/-- In lawful sessions no calls count but those of live events. -/
theorem endsWithin_live (h : m.Lawful) (ha : m.world.Aside w) (hc : c.All Command.Lawful)
    (counts : KernelId → Bool) :
    w.EndsWithin c counts (w.stored counts + w.liveCalls + c.timedCalls) := by
  have hsound := h.sound.aside ha
  have hlives : w.Lives (w.notes c) (ofCall w c).world := lives_start hsound hc.self
  have hstart := (hlives.liveReserve_le hsound counts).trans
    (Nat.add_le_add_left (booked_notes_le_callsAtOnce w c) _)
  have hpays (i : Nat) : ((ofCall w c).steps i).Pays (fun w => w.liveReserve counts) counts :=
    (keeps_steps Machine.Lawful Lawful.step (h.called ha hc) i).pays_live counts
  have h := endsWithin_of_pays hpays hstart
  rwa [liveReserve_eq] at h

/-- **Running and destroying come to an end.**  In every state, and from within any body, `run` and
`destroy` answer or panic after finitely many steps, and all run loops together, nested ones
included, dequeue no more events than were stored at the start and timed scheduling calls occur in
the bodies of what is held.  In the sessions that put no handle together the bodies of cancelled
events do not count.  The events of any choice of kernels may be counted. -/
theorem run_and_destroy_end (w : World) (t : Target) (counts : KernelId → Bool) :
    (w.EndsWithin (.run t) counts (w.stored counts + w.heldCalls) ∧
      w.EndsWithin (.destroy t) counts (w.stored counts + w.heldCalls)) ∧
    ∀ m, Reached Command.Lawful m → m.world.Aside w →
      w.EndsWithin (.run t) counts (w.stored counts + w.liveCalls) ∧
        w.EndsWithin (.destroy t) counts (w.stored counts + w.liveCalls) := by
  refine ⟨⟨w.endsWithin (.run t) counts, w.endsWithin (.destroy t) counts⟩, fun m hm ha => ?_⟩
  constructor
  · exact endsWithin_live (c := .run t) hm.lawful ha trivial counts
  · exact endsWithin_live (c := .destroy t) hm.lawful ha trivial counts

end World

namespace Machine

/-- A kernel with a live event, a cancelled one and a teardown event.  The live event and the
teardown event schedule something and run the kernel themselves. -/
def nestingMachine : Machine :=
  let t : Target := .kernel (.numbered 0)
  let now : Command := .schedule t .immediately (.numbered 4) (.silent [])
  let late : Command := .schedule t (.after (.clamp 3)) (.numbered 5)
    (.silent [.stopAfter t .zero (.numbered 6)])
  let w := (ofCall (.pristine none) (.build none (.builtIn 0))).world
  let w := (ofCall w
    (.schedule t (.after (.clamp 1)) (.numbered 1) (.silent [now, .run t]))).world
  let w := (ofCall w (.schedule t (.after (.clamp 2)) (.numbered 2) (.silent [now, now]))).world
  let w := (ofCall w
    (.schedule t .atTeardown (.numbered 3) (.silent [late, .run t, .attach t .heap]))).world
  ofCall w (.cancel t (.numbered 2))

theorem reached_nestingMachine : Reached Command.Lawful nestingMachine := by
  unfold nestingMachine
  refine .call (.call (.call (.call (.call (.pristine none) ?_ ?_) ?_ ?_) ?_ ?_) ?_ ?_) ?_ ?_
  all_goals first
    | rfl
    | simp [Command.All, Action.silent, Action.All, allOf, Command.Lawful, Backend.isBuiltIn]

/-- Its destruction dequeues five events, and no call could dequeue more. -/
theorem run_and_destroy_end_nestingMachine :
    let w := nestingMachine.world
    let t : Target := .kernel (.numbered 0)
    w.stored (fun _ => true) = 2 ∧ w.liveCalls = 3 ∧ w.heldCalls = 5 ∧
      (ofCall w (.destroy t)).dequeued (fun _ => true) 30 = 5 ∧
      w.EndsWithin (.run t) (fun _ => true) 5 ∧ w.EndsWithin (.destroy t) (fun _ => true) 5 := by
  intro w t
  have hstored : w.stored (fun _ => true) = 2 := by decide +kernel
  have hlive : w.liveCalls = 3 := by decide +kernel
  have hends := (w.run_and_destroy_end t fun _ => true).2 nestingMachine reached_nestingMachine
    (.refl _)
  rw [hstored, hlive] at hends
  exact ⟨hstored, hlive, by decide +kernel, by decide +kernel, hends⟩

/-- A kernel with a cancelled event and one that will withdraw it again, with a handle of a wrong
time. -/
def revivingMachine : Machine :=
  let t : Target := .kernel (.numbered 0)
  let now : Command := .schedule t .immediately (.numbered 4) (.silent [])
  let forge : Command := .forge (.numbered 2) (some .zero) none none false (.numbered 3)
  let w := (ofCall (.pristine none) (.build none (.builtIn 0))).world
  let w := (ofCall w (.schedule t (.after (.clamp 1)) (.numbered 1)
    (.silent [forge, .remove t (.numbered 3)]))).world
  let w := (ofCall w (.schedule t (.after (.clamp 2)) (.numbered 2) (.silent [now, now]))).world
  ofCall w (.cancel t (.numbered 2))

-- The cancelled event is taken for a live one then, so its body has to count.
example :
    let w := revivingMachine.world
    w.stored (fun _ => true) = 2 ∧ w.liveCalls = 0 ∧ w.heldCalls = 2 ∧
      (ofCall w (.run (.kernel (.numbered 0)))).dequeued (fun _ => true) 30 = 4 := by
  decide +kernel

end Machine

end EventSim
