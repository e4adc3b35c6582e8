import EventSim.Proofs.Kernel.Record

/-!
# The order in which timed events start

All events that a kernel has stored come after every event that has started, and so does whatever it
stores from now on: its time is not before the present and its number is new.  So **the keys of the
events that start ascend** over the whole life of a kernel (`Causal`).

Every event that starts was issued before, under a handle that has its key (`Sourced`), and the
present and the context are those of the event that has started last, until its run loop ends
(`Dated`).
-/

namespace EventSim

variable {α : Type}

/-- The time of the event that has started last. -/
def presentIn : List (Note α) → Time
  | [] => .zero
  | .started e :: _ => e.key.time
  | _ :: r => presentIn r

/-- The context of the event that has started last, unless a run loop has ended since. -/
def contextIn : List (Note α) → Context
  | [] => noContext
  | .started e :: _ => e.key.context
  | .ended :: _ => noContext
  | _ :: r => contextIn r

namespace Kernel

variable {k k' : Kernel α} {n : Option (Note α)} {r : List (Note α)}

/-- The clock and the counters are what the record says. -/
structure Dated (k : Kernel α) (r : List (Note α)) : Prop where
  now : k.now = presentIn r
  context : k.context = contextIn r
  executed : k.executed = (startedIn r).length

theorem dated_fresh (id : KernelId) (systemId : UInt32) : (fresh id systemId : Kernel α).Dated [] :=
  ⟨rfl, rfl, rfl⟩

theorem Dated.effect (hk : k.Dated r) (he : k.Effect n k') : k'.Dated (n.toList ++ r) := by
  cases he with
  | still ha => exact ⟨ha.now.trans hk.now, ha.context.trans hk.context,
      ha.executed.trans hk.executed⟩
  | ended => exact ⟨hk.now, rfl, hk.executed⟩
  | started => exact ⟨rfl, rfl, congrArg (· + 1) hk.executed⟩
  | _ => exact ⟨hk.now, hk.context, hk.executed⟩

/-! ### Ascent -/

/-- The events that have started come in the order of their keys and before all others. -/
structure Causal (k : Kernel α) (r : List (Note α)) : Prop where
  ascending : (startedIn r).Pairwise fun later earlier => earlier.key.Before later.key
  ahead : ∀ e ∈ startedIn r, ∀ x ∈ k.scheduler.toList, e.key.Before x.key
  /-- What is stored from now on comes after them too. -/
  past : ∀ e ∈ startedIn r, e.key.time ≤ k.now ∧ e.key.uid < k.nextUid

theorem causal_fresh (id : KernelId) (systemId : UInt32) :
    (fresh id systemId : Kernel α).Causal [] :=
  ⟨.nil, fun _ he => (by cases he), fun _ he => (by cases he)⟩

/-- Events may go, and the present and the next number may move up. -/
theorem Causal.mono (hc : k.Causal r) {r' : List (Note α)} (hr : startedIn r' = startedIn r)
    (hs : k'.scheduler.toList ⊆ k.scheduler.toList) (ht : k.now ≤ k'.now)
    (hn : k.nextUid ≤ k'.nextUid) : k'.Causal r' := by
  refine ⟨?_, fun e he x hx => ?_, fun e he => ?_⟩
  · rw [hr]
    exact hc.ascending
  · exact hc.ahead e (hr ▸ he) x (hs hx)
  · obtain ⟨htime, huid⟩ := hc.past e (hr ▸ he)
    exact ⟨Time.le_trans htime ht, Nat.lt_of_lt_of_le huid hn⟩

/-- What is due no earlier than now and has a new number comes after all that have started. -/
theorem Causal.before_new (hc : k.Causal r) {e : Event (Payload α)} (he : e ∈ startedIn r)
    {time : Time} (ht : k.now ≤ time) (context : Context) :
    e.key.Before ⟨time, k.nextUid, context⟩ := by
  obtain ⟨htime, huid⟩ := hc.past e he
  have hle := Time.le_trans htime ht
  rw [Time.le_def] at hle
  rw [EventKey.before_iff]
  dsimp only
  omega

theorem Causal.store (hc : k.Causal r) (s : k.Sound) {time : Time} (ht : k.now ≤ time)
    (context : Context) (payload : Payload α) (h : Handle) :
    (k.store time context payload).2.Causal (.issued h payload :: r) := by
  refine ⟨hc.ascending, fun e he x hx => ?_, fun e he => ?_⟩
  · rcases List.mem_cons.1 ((s.perm_store time context payload).mem_iff.1 hx) with rfl | hx
    · exact hc.before_new he ht context
    · exact hc.ahead e he x hx
  · obtain ⟨htime, huid⟩ := hc.past e he
    exact ⟨htime, Nat.lt_succ_of_lt huid⟩

/-- The event that starts comes after those that have started and before those that are left. -/
theorem Causal.started (hc : k.Causal r) (s : k.Sound) {e : Event (Payload α)}
    {rest : Scheduler (Payload α)} (hp : k.scheduler.toList.Perm (e :: rest.toList))
    (hfirst : ∀ x ∈ rest.toList, e.key.Before x.key) (hle : k.now ≤ e.key.time)
    (hs : k'.scheduler = rest) (hnow : k'.now = e.key.time) (hn : k'.nextUid = k.nextUid) :
    k'.Causal (.started e :: r) := by
  have he : e ∈ k.scheduler.toList := hp.mem_iff.2 List.mem_cons_self
  constructor
  case ascending => exact List.pairwise_cons.2 ⟨fun x hx => hc.ahead x hx e he, hc.ascending⟩
  case ahead =>
    rw [hs]
    intro x hx
    rcases List.mem_cons.1 hx with rfl | hx
    · exact hfirst
    · exact fun y hy => hc.ahead x hx y (hp.mem_iff.2 (List.mem_cons_of_mem _ hy))
  case past =>
    rw [hnow, hn]
    intro x hx
    rcases List.mem_cons.1 hx with rfl | hx
    · exact ⟨Time.le_refl _, (s.minted _ (List.mem_append_left _ (mem_storedUids he))).2⟩
    · obtain ⟨htime, huid⟩ := hc.past x hx
      exact ⟨Time.le_trans htime hle, huid⟩

/-- **The keys of the events that start ascend**, whatever a kernel does. -/
theorem Causal.effect (s : k.Sound) (he : k.Effect n k') (hc : k.Causal r) :
    k'.Causal (n.toList ++ r) := by
  have hrest {e : Event (Payload α)} {rest : Scheduler (Payload α)}
      (hp : k.scheduler.toList.Perm (e :: rest.toList)) :
      rest.toList ⊆ k.scheduler.toList := fun x hx =>
    hp.mem_iff.2 (List.mem_cons_of_mem _ hx)
  cases he with
  | still ha =>
    exact hc.mono rfl ha.stored.subset (ha.now ▸ Time.le_refl _) (Nat.le_of_eq ha.nextUid.symm)
  | stored time context payload ht => exact hc.store s ht context payload _
  | registered => exact hc.mono rfl (List.Subset.refl _) (Time.le_refl _) (Nat.le_succ _)
  | started hp hfirst _ hle => exact hc.started s hp hfirst hle rfl rfl rfl
  | dropped _ _ _ hp => exact hc.mono rfl (hrest hp) (Time.le_refl _) (Nat.le_refl _)
  | skipped hp => exact hc.mono rfl (hrest hp) (Time.le_refl _) (Nat.le_refl _)
  | swept => exact hc.mono rfl (List.nil_subset _) (Time.le_refl _) (Nat.le_refl _)
  | vanished => exact hc.mono rfl (List.nil_subset _) (Time.le_refl _) (Nat.le_refl _)
  | _ => exact hc.mono rfl (List.Subset.refl _) (Time.le_refl _) (Nat.le_refl _)

/-! ### Where events come from -/

/-- What is stored and what has started was issued before, under a handle with the same key. -/
structure Sourced (k : Kernel α) (r : List (Note α)) : Prop where
  stored : ∀ e ∈ k.scheduler.toList, .issued (.ofKey (some k.id) e.key) e.payload ∈ r
  started : ∀ e earlier, (.started e :: earlier) <:+ r →
    .issued (.ofKey (some k.id) e.key) e.payload ∈ earlier

theorem sourced_fresh (id : KernelId) (systemId : UInt32) :
    (fresh id systemId : Kernel α).Sourced [] :=
  ⟨fun _ he => (by cases he), fun _ _ hs => (by cases List.suffix_nil.1 hs)⟩

/-- A note that is about no start leaves the events that have started where they come from. -/
theorem Sourced.keep (hk : k.Sourced r) (hid : k'.id = k.id) (hn : n.bind Note.started? = none)
    (hs : ∀ e ∈ k'.scheduler.toList, .issued (.ofKey (some k.id) e.key) e.payload ∈ n.toList ++ r) :
    k'.Sourced (n.toList ++ r) := by
  refine ⟨by rwa [hid], fun e earlier h => ?_⟩
  rw [hid]
  cases n with
  | none => exact hk.started e earlier h
  | some x =>
    rcases List.suffix_cons_iff.1 h with heq | h
    · cases heq
      cases hn
    · exact hk.started e earlier h

theorem Sourced.effect (s : k.Sound) (he : k.Effect n k') (hk : k.Sourced r) :
    k'.Sourced (n.toList ++ r) := by
  have hkept {l : List (Event (Payload α))} (hl : l ⊆ k.scheduler.toList) :
      ∀ e ∈ l, .issued (.ofKey (some k.id) e.key) e.payload ∈ n.toList ++ r :=
    fun e he => List.mem_append_right _ (hk.stored e (hl he))
  have hrest {e : Event (Payload α)} {rest : Scheduler (Payload α)}
      (hp : k.scheduler.toList.Perm (e :: rest.toList)) :
      rest.toList ⊆ k.scheduler.toList := fun x hx =>
    hp.mem_iff.2 (List.mem_cons_of_mem _ hx)
  cases he with
  | still ha => exact hk.keep ha.id rfl (hkept ha.stored.subset)
  | stored time context payload ht =>
    refine hk.keep rfl rfl fun e he => ?_
    rcases List.mem_cons.1 ((s.perm_store time context payload).mem_iff.1 he) with rfl | he
    · exact List.mem_cons_self
    · exact List.mem_cons_of_mem _ (hk.stored e he)
  | @started e rest hp =>
    have he : e ∈ k.scheduler.toList := hp.mem_iff.2 List.mem_cons_self
    refine ⟨hkept (hrest hp), fun x earlier h => ?_⟩
    rcases List.suffix_cons_iff.1 h with heq | h
    · cases heq
      exact hk.stored e he
    · exact hk.started x earlier h
  | dropped _ _ _ hp => exact hk.keep rfl rfl (hkept (hrest hp))
  | skipped hp => exact hk.keep rfl rfl (hkept (hrest hp))
  | swept => exact hk.keep rfl rfl (hkept (List.nil_subset _))
  | vanished => exact hk.keep rfl rfl (hkept (List.nil_subset _))
  | _ => exact hk.keep rfl rfl (hkept (List.Subset.refl _))

end Kernel

end EventSim
