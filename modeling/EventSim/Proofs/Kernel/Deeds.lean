import EventSim.Kernel
import EventSim.Proofs.Scheduler.Collection

/-!
# The deeds of a kernel

All that ever happens to a kernel is a deed: it stores an event or registers a teardown event, an
event is withdrawn through its handle, another backend is attached, the run loop begins, takes an
event or ends, the destruction takes a teardown event or sweeps, or the kernel goes as a whole.
`Kernel.Does` says what each deed makes of a kernel.  A deed is atomic: calls from inside of actions
and panics only decide which deeds follow one another, so what every deed keeps holds in every state
of every program.
-/

namespace EventSim

/-- What can happen to a kernel. -/
inductive Deed (α : Type) where
  | stored (key : EventKey) (payload : Payload α)
  | registered (event : TeardownEvent α)
  | removed (h : Handle)
  | cancelled (h : Handle)
  | attached (b : Backend)
  /-- The run loop is asked to end. -/
  | stopped
  | began
  | ended
  | started (e : Event (Payload α))
  | skipped (payload : Payload α)
  /-- An event of the past comes out. -/
  | strayed (payload : Payload α)
  /-- The next teardown event starts. -/
  | unwound (event : TeardownEvent α)
  /-- Destruction ends: the timed events go. -/
  | swept
  /-- The kernel goes with all its events. -/
  | vanished

namespace Deed

variable {α : Type}

/-- What a deed puts into the kernel. -/
def taken : Deed α → List (Payload α)
  | stored _ payload => [payload]
  | registered e => [.act e.action]
  | _ => []

/-- What a deed hands out to be run or given up. -/
def handed : Deed α → List (Payload α)
  | started e => [e.payload]
  | skipped payload | strayed payload => [payload]
  | unwound e => [.act e.action]
  | _ => []

end Deed

namespace Kernel

variable {α : Type} {k k' : Kernel α} {h : Handle} {d : Deed α}

/-- The kernel `k` takes an event in, answers its handle and becomes `k'`. -/
inductive Issues : Kernel α → Deed α → Handle → Kernel α → Prop
  | stored (k : Kernel α) (time : Time) (context : Context) (payload : Payload α) :
      k.now ≤ time →
      Issues k (.stored ⟨time, k.nextUid, context⟩ payload) (k.store time context payload).1
        (k.store time context payload).2
  | registered (k : Kernel α) (a : α) :
      Issues k (.registered ⟨k.nextUid, a⟩) (k.register a).1 (k.register a).2

/-- The kernel `k` becomes `k'` by a deed. -/
inductive Does : Kernel α → Deed α → Kernel α → Prop
  | issued {k k' : Kernel α} {d : Deed α} {h : Handle} : Issues k d h k' → Does k d k'
  | removed (k : Kernel α) (h : Handle) : Does k (.removed h) (k.remove h).2
  | cancelled (k : Kernel α) (h : Handle) : Does k (.cancelled h) (k.cancel h).2
  | attached (k : Kernel α) (b : Backend) : Does k (.attached b) (k.attach b)
  | stopped (k : Kernel α) : Does k .stopped k.stop
  | began (k : Kernel α) : Does k .began k.beginRun
  | ended (k : Kernel α) : Does k .ended k.endRun
  | started {k k' : Kernel α} {e : Event (Payload α)} :
      k.dequeue = .started e k' → Does k (.started e) k'
  | skipped {k k' : Kernel α} {payload : Payload α} :
      k.dequeue = .skipped payload k' → Does k (.skipped payload) k'
  | strayed {k k' : Kernel α} {payload : Payload α} :
      k.dequeue = .past payload k' → Does k (.strayed payload) k'
  | unwound {k k' : Kernel α} {e : TeardownEvent α} :
      k.popTeardown = some (e, k') → Does k (.unwound e) k'
  | swept (k : Kernel α) : k.teardowns = [] → Does k .swept k.sweep.2
  | vanished (k : Kernel α) : Does k .vanished k.emptied

/-! ### Numbers -/

/-- The numbers of the stored events. -/
def storedUids (k : Kernel α) : List Nat := k.scheduler.toList.map fun e => e.key.uid

/-- The numbers of the teardown events. -/
def teardownUids (k : Kernel α) : List Nat := k.teardowns.map TeardownEvent.uid

/-! ### Scheduling -/

theorem zero_le_of_not_negative {t : Time} (h : t.isNegative = false) : .zero ≤ t := by
  simp only [Time.isNegative, decide_eq_false_iff_not] at h
  rw [Time.le_def]
  show 0 ≤ t.ticks
  omega

/-- A delay that is not negative leads from the present into the future. -/
theorem le_of_checkedAdd {now delay time : Time} (hn : ¬ delay.isNegative)
    (ht : now.checkedAdd delay = some time) : now ≤ time := by
  have hd := zero_le_of_not_negative (Bool.eq_false_iff.2 hn)
  have hs := Time.ofInt?_eq_some.1 ht
  rw [Time.le_def] at hd ⊢
  have : Time.zero.ticks = 0 := rfl
  omega

theorem insert_eq_ok {context : Context} {delay : Time} {payload : Payload α}
    (hi : k.insert context delay payload = .ok (h, k')) :
    ∃ time, k.now ≤ time ∧ (h, k') = k.store time context payload := by
  unfold insert at hi
  split at hi
  · cases hi
  · rename_i hn
    split at hi
    · cases hi
    · rename_i time ht
      cases hi
      exact ⟨time, le_of_checkedAdd hn ht, rfl⟩

/-- What a deed that accepts an action makes of it. -/
inductive Accepts (a : α) : Deed α → Prop
  | stored (key : EventKey) : Accepts a (.stored key (.act a))
  | registered (uid : Nat) : Accepts a (.registered ⟨uid, a⟩)

theorem issues_of_schedule {timing : Timing} {a : α} (hs : k.schedule timing a = .ok (h, k')) :
    ∃ d, Accepts a d ∧ k.Issues d h k' := by
  cases timing with
  | after delay =>
    obtain ⟨time, ht, he⟩ := insert_eq_ok hs
    cases he
    exact ⟨_, .stored _, .stored k time _ _ ht⟩
  | immediately =>
    cases hs
    exact ⟨_, .stored _, .stored k k.now _ _ (Time.le_refl _)⟩
  | under context delay =>
    obtain ⟨time, ht, he⟩ := insert_eq_ok hs
    cases he
    exact ⟨_, .stored _, .stored k time _ _ ht⟩
  | atTeardown =>
    cases hs
    exact ⟨_, .registered _, .registered k a⟩

theorem issues_of_stopAfter {delay : Time} (hs : k.stopAfter delay = .ok (h, k')) :
    ∃ key, k.Issues (.stored key .halt) h k' := by
  obtain ⟨time, ht, he⟩ := insert_eq_ok hs
  cases he
  exact ⟨_, .stored k time _ _ ht⟩

/-! ### Dequeuing -/

theorem dequeue_eq_skipped {payload : Payload α} (h : k.dequeue = .skipped payload k') :
    ∃ e rest, k.scheduler.pop = some (e, rest) ∧ e.payload = payload ∧ e.key.uid ∈ k.cancelled ∧
      k' = { k with scheduler := rest, cancelled := k.cancelled.erase e.key.uid } := by
  unfold dequeue at h
  split at h
  · cases h
  · split at h
    · cases h
    · rename_i e rest hp
      dsimp only at h
      split at h
      · rename_i hc
        cases h
        exact ⟨e, rest, hp, rfl, hc, rfl⟩
      · split at h <;> cases h

theorem dequeue_eq_past {payload : Payload α} (h : k.dequeue = .past payload k') :
    ∃ e rest, k.scheduler.pop = some (e, rest) ∧ e.payload = payload ∧ e.key.time < k.now ∧
      k' = { k with scheduler := rest } := by
  unfold dequeue at h
  split at h
  · cases h
  · split at h
    · cases h
    · rename_i e rest hp
      dsimp only at h
      split at h
      · cases h
      · split at h
        · rename_i hlt
          cases h
          exact ⟨e, rest, hp, rfl, hlt, rfl⟩
        · cases h

theorem dequeue_eq_started {e : Event (Payload α)} (h : k.dequeue = .started e k') :
    ∃ rest, k.scheduler.pop = some (e, rest) ∧ e.key.uid ∉ k.cancelled ∧ k.now ≤ e.key.time ∧
      k' = { k with
        scheduler := rest
        pending := k.pending.erase e.key.uid
        executed := k.executed + 1
        now := e.key.time
        context := e.key.context } := by
  unfold dequeue at h
  split at h
  · cases h
  · split at h
    · cases h
    · rename_i x rest hp
      dsimp only at h
      split at h
      · cases h
      · rename_i hc
        split at h
        · cases h
        · rename_i hlt
          cases h
          exact ⟨rest, hp, hc, Time.not_lt.1 hlt, rfl⟩

theorem dequeue_of_stopping (h : k.stopping = true) : k.dequeue = .idle := by
  rw [dequeue, if_pos h]

theorem dequeue_of_pop_none (h : k.scheduler.pop = none) : k.dequeue = .idle := by
  unfold dequeue
  rw [h]
  split <;> rfl

theorem dequeue_of_pop_cancelled {e : Event (Payload α)} {rest : Scheduler (Payload α)}
    (hs : k.stopping = false) (hp : k.scheduler.pop = some (e, rest))
    (hc : e.key.uid ∈ k.cancelled) :
    k.dequeue = .skipped e.payload
      { k with scheduler := rest, cancelled := k.cancelled.erase e.key.uid } := by
  unfold dequeue
  rw [hs, hp]
  exact if_pos hc

theorem dequeue_of_pop {e : Event (Payload α)} {rest : Scheduler (Payload α)}
    (hs : k.stopping = false) (hp : k.scheduler.pop = some (e, rest))
    (hc : e.key.uid ∉ k.cancelled) (ht : k.now ≤ e.key.time) :
    k.dequeue = .started e
      { k with
        scheduler := rest
        pending := k.pending.erase e.key.uid
        executed := k.executed + 1
        now := e.key.time
        context := e.key.context } := by
  unfold dequeue
  rw [hs, hp]
  dsimp only
  rw [if_neg Bool.false_ne_true, if_neg hc, if_neg (Time.not_lt.2 ht)]

/-- The context plays no part in what is next. -/
theorem dequeue_endRun (k : Kernel α) : k.endRun.dequeue =
    match k.dequeue with
    | .idle => .idle
    | .skipped payload k' => .skipped payload k'.endRun
    | .past payload k' => .past payload k'.endRun
    | .started e k' => .started e k' := by
  unfold dequeue endRun
  dsimp only
  cases k.stopping with
  | true => rfl
  | false =>
    simp only [Bool.false_eq_true, if_false]
    cases k.scheduler.pop with
    | none => rfl
    | some r =>
      obtain ⟨e, rest⟩ := r
      dsimp only
      by_cases hc : e.key.uid ∈ k.cancelled
      · simp only [hc, if_true]
      · by_cases ht : e.key.time < k.now
        · simp only [hc, ht, if_false, if_true]
        · simp only [hc, ht, if_false]

theorem popTeardown_eq_some {e : TeardownEvent α} :
    k.popTeardown = some (e, k') ↔
      ∃ rest, k.teardowns = e :: rest ∧ k' = { k with teardowns := rest } := by
  unfold popTeardown
  cases ht : k.teardowns with
  | nil => simp
  | cons x rest =>
    simp only [Option.some.injEq, Prod.mk.injEq, List.cons.injEq]
    constructor
    · rintro ⟨rfl, rfl⟩
      exact ⟨rest, ⟨rfl, rfl⟩, rfl⟩
    · rintro ⟨_, ⟨rfl, rfl⟩, rfl⟩
      exact ⟨rfl, rfl⟩

theorem popTeardown_eq_none : k.popTeardown = none ↔ k.teardowns = [] := by
  unfold popTeardown
  cases k.teardowns <;> simp

/-! ### What a kernel holds -/

/-- All that is stored, the teardown events included. -/
def load (k : Kernel α) : List (Payload α) :=
  k.scheduler.payloads ++ k.teardowns.map fun e => .act e.action

theorem load_eq_of_pop {e : Event (Payload α)} {rest : Scheduler (Payload α)}
    (hp : k.scheduler.pop = some (e, rest)) :
    k.load.Perm (e.payload :: { k with scheduler := rest }.load) :=
  ((Scheduler.perm_pop hp).map Event.payload).append_right _

theorem load_takeTeardown (k : Kernel α) (uid : Nat) : (k.takeTeardown uid).2.load.Subperm k.load :=
  ((List.eraseP_sublist.map _).append_left _).subperm

theorem load_remove (k : Kernel α) (h : Handle) : (k.remove h).2.load.Subperm k.load := by
  unfold remove
  split
  · split
    · exact load_takeTeardown k _
    · dsimp only
      split
      · have hp := (Scheduler.perm_remove k.scheduler h.key).map Event.payload
        rw [List.map_append] at hp
        exact (List.subperm_append_right _).2
          ((List.sublist_append_right _ _).subperm.trans hp.symm.subperm)
      · exact .refl _
  · exact .refl _

theorem load_cancel (k : Kernel α) (h : Handle) : (k.cancel h).2.load.Subperm k.load := by
  unfold cancel
  split
  · split
    · exact load_takeTeardown k _
    · split <;> exact .refl _
  · exact .refl _

/-- **Nothing comes out of a kernel that did not go in**: what a deed hands out and what is left was
there before or is what the deed takes in. -/
theorem Does.load (hd : k.Does d k') : (d.handed ++ k'.load).Subperm (d.taken ++ k.load) := by
  cases hd with
  | issued hi =>
    cases hi with
    | stored time context payload ht =>
      exact (List.subperm_append_right _).2 (Scheduler.payloads_insert k.scheduler _)
    | registered a =>
      have hr : (k.register a).2.load = k.load ++ [.act a] := by
        simp [register, Kernel.load]
      show (k.register a).2.load.Subperm (.act a :: k.load)
      rw [hr]
      exact (List.perm_append_singleton _ _).subperm
  | removed h => exact load_remove k h
  | cancelled h => exact load_cancel k h
  | attached b => exact (List.subperm_append_right _).2 (Scheduler.payloads_migrate k.scheduler b)
  | stopped => exact .refl _
  | began => exact .refl _
  | ended => exact .refl _
  | started hq =>
    obtain ⟨rest, hp, -, -, rfl⟩ := dequeue_eq_started hq
    exact (load_eq_of_pop hp).symm.subperm
  | skipped hq =>
    obtain ⟨e, rest, hp, rfl, -, rfl⟩ := dequeue_eq_skipped hq
    exact (load_eq_of_pop hp).symm.subperm
  | strayed hq =>
    obtain ⟨e, rest, hp, rfl, -, rfl⟩ := dequeue_eq_past hq
    exact (load_eq_of_pop hp).symm.subperm
  | @unwound _ e hq =>
    obtain ⟨rest, ht, rfl⟩ := popTeardown_eq_some.1 hq
    have hl : k.load = k.scheduler.payloads ++
        .act e.action :: rest.map fun e => .act e.action := congrArg (_ ++ List.map _ ·) ht
    show List.Subperm (.act e.action :: (k.scheduler.payloads ++ rest.map _)) k.load
    rw [hl]
    exact List.perm_middle.symm.subperm
  | swept ht => exact (List.sublist_append_right k.scheduler.payloads _).subperm
  | vanished => exact (List.nil_sublist _).subperm

/-- What was neither taken in nor held before is not held now. -/
theorem Does.holds {q : α → Prop} (hd : k.Does d k') (ht : ∀ a, Payload.act a ∈ d.taken → q a)
    (hq : ∀ a, Payload.act a ∈ k.load → q a) : ∀ a, Payload.act a ∈ k'.load → q a := by
  intro a ha
  rcases List.mem_append.1 (hd.load.subset (List.mem_append_right _ ha)) with ha | ha
  · exact ht a ha
  · exact hq a ha

end Kernel

end EventSim
