import EventSim.Proofs.Kernel.Mirrors
import EventSim.Proofs.Kernel.Record
import EventSim.Proofs.Scheduler.Recasts

/-!
# Kernels whose actions are recast

`Kernel.recast g` changes every action that a kernel holds, by a function of the number of its event
and of the action itself.  A kernel looks into no action, so it does the same before and after, and
what it takes in may be recast before as well as after: one equation for each operation.  Only what
an operation hands out differs, and it is recast in the same way.
-/

namespace EventSim

variable {α β : Type} {g : Nat → α → β}

/-- The teardown event with its action changed according to its number. -/
def TeardownEvent.recast (g : Nat → α → β) (e : TeardownEvent α) : TeardownEvent β :=
  ⟨e.uid, g e.uid e.action⟩

/-- The timed event with its action changed according to its number. -/
def Event.recastAction (g : Nat → α → β) : Event (Payload α) → Event (Payload β) :=
  Event.recast fun uid => Payload.map (g uid)

namespace Kernel

variable {k k' : Kernel α} {h : Handle}

/-- The kernel with its actions changed according to the numbers of their events. -/
def recast (g : Nat → α → β) (k : Kernel α) : Kernel β where
  id := k.id
  systemId := k.systemId
  now := k.now
  context := k.context
  stopping := k.stopping
  scheduler := k.scheduler.recast fun uid => Payload.map (g uid)
  teardowns := k.teardowns.map (TeardownEvent.recast g)
  pending := k.pending
  cancelled := k.cancelled
  nextUid := k.nextUid
  executed := k.executed

theorem recast_fresh (g : Nat → α → β) (id : KernelId) (systemId : UInt32) :
    (fresh id systemId).recast g = fresh id systemId := by
  simp only [recast, fresh, Scheduler.recast_empty, List.map_nil]

/-- A kernel whose actions stay as they are stays as it is. -/
theorem recast_eq_self {g : Nat → α → α} {k : Kernel α}
    (h : ∀ i ∈ k.items, ∀ a, i.payload = .act a → g i.uid a = a) : k.recast g = k := by
  have hs : k.scheduler.recast (fun uid => Payload.map (g uid)) = k.scheduler := by
    refine Scheduler.recast_eq_self fun e he => ?_
    cases hp : e.payload with
    | halt => rfl
    | act a =>
      exact congrArg Payload.act
        (h e.item (List.mem_append_left _ (List.mem_map.2 ⟨e, he, rfl⟩)) a hp)
  have ht : k.teardowns.map (TeardownEvent.recast g) = k.teardowns := by
    refine (List.map_congr_left fun e he => ?_).trans (List.map_id _)
    have ha := h e.item (List.mem_append_right _ (List.mem_map.2 ⟨e, he, rfl⟩)) e.action rfl
    exact congrArg (TeardownEvent.mk e.uid) ha
  rw [recast, hs, ht]

/-! ### Scheduling -/

theorem store_recast (k : Kernel α) (time : Time) (context : Context) (p : Payload α) :
    (k.recast g).store time context (p.map (g k.nextUid)) =
      ((k.store time context p).1, (k.store time context p).2.recast g) := by
  have hs := k.scheduler.insert_recast (f := fun uid => Payload.map (g uid))
    ⟨⟨time, k.nextUid, context⟩, p⟩
  simp only [Event.recast] at hs
  simp only [store, recast, hs]

theorem insert_recast (k : Kernel α) (context : Context) (delay : Time) (p : Payload α) :
    (k.recast g).insert context delay (p.map (g k.nextUid)) =
      (k.insert context delay p).map fun r => (r.1, r.2.recast g) := by
  have hnow : (k.recast g).now = k.now := rfl
  unfold Kernel.insert
  rw [hnow]
  split
  · rfl
  · split
    · rfl
    · rw [store_recast]
      rfl

theorem register_recast (k : Kernel α) (a : α) :
    (k.recast g).register (g k.nextUid a) = ((k.register a).1, (k.register a).2.recast g) := by
  simp [register, recast, TeardownEvent.recast]

/-- An action is accepted under the number that comes next, before and after. -/
theorem schedule_recast (k : Kernel α) (timing : Timing) (a : α) :
    (k.recast g).schedule timing (g k.nextUid a) =
      (k.schedule timing a).map fun r => (r.1, r.2.recast g) := by
  cases timing with
  | after delay => exact k.insert_recast k.context delay (.act a)
  | immediately => exact congrArg Except.ok (k.store_recast k.now k.context (.act a))
  | under context delay => exact k.insert_recast context delay (.act a)
  | atTeardown => exact congrArg Except.ok (k.register_recast a)

theorem stopAfter_recast (k : Kernel α) (delay : Time) :
    (k.recast g).stopAfter delay = (k.stopAfter delay).map fun r => (r.1, r.2.recast g) :=
  k.insert_recast k.context delay .halt

/-! ### Handles -/

theorem takeTeardown_recast (k : Kernel α) (uid : Nat) :
    (k.recast g).takeTeardown uid =
      ((k.takeTeardown uid).1.map (g uid), (k.takeTeardown uid).2.recast g) := by
  have hcomp : (fun e : TeardownEvent β => e.uid == uid) ∘ TeardownEvent.recast g =
      fun e => e.uid == uid := rfl
  simp only [takeTeardown, recast, List.find?_map, List.eraseP_map, hcomp, Option.map_map,
    Prod.mk.injEq, and_true]
  refine Option.map_congr fun e he => ?_
  have hu : e.uid = uid := by simpa using List.find?_some he
  rw [← hu]
  rfl

/-- The same event is removed. -/
theorem remove_recast (k : Kernel α) (h : Handle) :
    (k.recast g).remove h = ((k.remove h).1.map (g h.uid), (k.remove h).2.recast g) := by
  have hi : (k.recast g).Issued h ↔ k.Issued h := .rfl
  unfold Kernel.remove
  by_cases hk : k.Issued h
  · rw [if_pos hk, if_pos (hi.2 hk)]
    split
    · exact k.takeTeardown_recast h.uid
    · simp only [recast, Scheduler.remove_recast]
      split
      · refine Prod.ext ?_ rfl
        dsimp only
        cases hr : (k.scheduler.remove h.key).1 with
        | none => rfl
        | some e =>
          have hu : e.key.uid = h.uid := (Scheduler.remove_some hr).2
          show (e.payload.map (g e.key.uid)).action? = e.payload.action?.map (g h.uid)
          rw [Payload.action?_map, hu]
      · rfl
  · rw [if_neg hk, if_neg fun hg => hk (hi.1 hg)]
    rfl

theorem cancel_recast (k : Kernel α) (h : Handle) :
    (k.recast g).cancel h = ((k.cancel h).1.map (g h.uid), (k.cancel h).2.recast g) := by
  have hi : (k.recast g).Issued h ↔ k.Issued h := .rfl
  unfold Kernel.cancel
  by_cases hk : k.Issued h
  · rw [if_pos hk, if_pos (hi.2 hk)]
    split
    · exact k.takeTeardown_recast h.uid
    · have hp : (k.recast g).pending = k.pending := rfl
      rw [hp]
      by_cases hu : h.uid ∈ k.pending
      · rw [if_pos hu, if_pos hu]
        rfl
      · rw [if_neg hu, if_neg hu]
        rfl
  · rw [if_neg hk, if_neg fun hg => hk (hi.1 hg)]
    rfl

theorem isExpired_recast (k : Kernel α) (h : Handle) :
    (k.recast g).isExpired h = k.isExpired h := by
  have hi : (k.recast g).Issued h ↔ k.Issued h := .rfl
  unfold Kernel.isExpired
  by_cases hk : k.Issued h
  · rw [if_pos hk, if_pos (hi.2 hk)]
    split
    · dsimp only [recast]
      rw [List.any_map]
      rfl
    · rfl
  · rw [if_neg hk, if_neg fun hg => hk (hi.1 hg)]

theorem delayLeft_recast (k : Kernel α) (h : Handle) :
    (k.recast g).delayLeft h = k.delayLeft h := by
  have hnow : (k.recast g).now = k.now := rfl
  unfold Kernel.delayLeft
  rw [isExpired_recast, hnow]

/-! ### State -/

theorem attach_recast (k : Kernel α) (b : Backend) :
    (k.recast g).attach b = (k.attach b).recast g := by
  simp only [attach, recast, Scheduler.migrate_recast]

/-! ### The run loop -/

/-- The run loops have the same thing to do next. -/
inductive DequeuesRecast (g : Nat → α → β) : Dequeued α → Dequeued β → Prop
  | idle : DequeuesRecast g .idle .idle
  | skipped (uid : Nat) (p : Payload α) (k : Kernel α) :
      DequeuesRecast g (.skipped p k) (.skipped (p.map (g uid)) (k.recast g))
  | past (uid : Nat) (p : Payload α) (k : Kernel α) :
      DequeuesRecast g (.past p k) (.past (p.map (g uid)) (k.recast g))
  | started (e : Event (Payload α)) (k : Kernel α) :
      DequeuesRecast g (.started e k) (.started (e.recastAction g) (k.recast g))

/-- **The same event runs next.** -/
theorem dequeue_recast (k : Kernel α) : DequeuesRecast g k.dequeue (k.recast g).dequeue := by
  unfold Kernel.dequeue
  simp only [recast, Scheduler.pop_recast]
  by_cases hstop : k.stopping = true
  · simp only [hstop, if_true]
    exact .idle
  · cases k.scheduler.pop with
    | none =>
      simp only [hstop, Option.map_none]
      exact .idle
    | some r =>
      obtain ⟨e, rest⟩ := r
      simp only [hstop, Option.map_some, Event.recast]
      by_cases hc : e.key.uid ∈ k.cancelled
      · simp only [hc, if_true]
        exact .skipped e.key.uid _ _
      · by_cases hlt : e.key.time < k.now
        · simp only [hc, hlt, if_true, if_false]
          exact .past e.key.uid _ _
        · simp only [hc, hlt, if_false]
          exact .started e _

/-! ### Destruction -/

theorem popTeardown_recast (k : Kernel α) :
    (k.recast g).popTeardown = k.popTeardown.map fun r => (r.1.recast g, r.2.recast g) := by
  simp only [popTeardown, recast]
  cases k.teardowns <;> rfl

theorem sweep_recast (k : Kernel α) : (k.recast g).sweep.2 = k.sweep.2.recast g := by
  simp only [sweep, recast, Scheduler.recast_empty]

/-- What recasting leaves alone is found in the same order in the actions that are given up. -/
theorem filterMap_sweep_recast {γ : Type} {t : β → Option γ} {t' : α → Option γ}
    (ht : ∀ uid a, t (g uid a) = t' a) (k : Kernel α) :
    (k.recast g).sweep.1.filterMap t = k.sweep.1.filterMap t' := by
  simp only [sweep, recast, Scheduler.toList_recast, List.filterMap_filterMap, List.filterMap_map]
  refine List.filterMap_congr fun e _ => ?_
  show (Payload.map (g e.key.uid) e.payload).action?.bind t = e.payload.action?.bind t'
  rw [Payload.action?_map]
  cases e.payload.action? with
  | none => rfl
  | some a => exact ht e.key.uid a

end Kernel

end EventSim
