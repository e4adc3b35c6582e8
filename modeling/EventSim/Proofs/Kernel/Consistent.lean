import EventSim.Proofs.Kernel.Deeds
import Mathlib.Data.List.Nodup

/-!
# The books of a kernel

A kernel keeps four lists that have to agree: the scheduler, the numbers that will run, the numbers
that will be skipped and the teardown events.  `Consistent` says how they agree; `Sound` adds what a
proof that it stays so needs of the scheduler.

* `Sound.does`: **every deed keeps `Sound`**, provided that an attached backend is a built-in one
  and that a handle through which an event is withdrawn is one that the kernel `Knows`.
* `Knows.does`: a handle that is known stays known.  A kernel knows a handle if its number was
  handed out and, as long as an event of that number is stored, this event has the handle's time.
-/

namespace EventSim

variable {α : Type}

namespace Kernel

variable {k k' : Kernel α} {h : Handle} {d : Deed α}

/-- The books of a kernel agree. -/
structure Consistent (k : Kernel α) : Prop where
  /-- The stored numbers are those that will run together with those that will be skipped. -/
  stored : k.storedUids.Perm (k.pending ++ k.cancelled)
  /-- No number is used twice. -/
  distinct : (k.storedUids ++ k.teardownUids).Nodup
  /-- Every number in use was handed out. -/
  minted : ∀ uid ∈ k.storedUids ++ k.teardownUids, 1 ≤ uid ∧ uid < k.nextUid
  /-- No stored event is due before the present. -/
  due : ∀ e ∈ k.scheduler.toList, k.now ≤ e.key.time
  /-- The present is not before the start of virtual time. -/
  begun : .zero ≤ k.now

/-- The books agree, and the scheduler is a built-in one and lies in its order. -/
structure Sound (k : Kernel α) : Prop extends Consistent k where
  ordered : k.scheduler.Ordered
  nextUid_pos : 1 ≤ k.nextUid

/-- A handle that the kernel may have issued. -/
structure Knows (k : Kernel α) (h : Handle) : Prop where
  minted : h.uid < k.nextUid
  time : h.kind = .timed → ∀ e ∈ k.scheduler.toList, e.key.uid = h.uid → e.key.time = h.time

theorem sound_fresh (id : KernelId) (systemId : UInt32) : (fresh id systemId : Kernel α).Sound where
  stored := .refl _
  distinct := List.nodup_nil
  minted := fun _ hu => by cases hu
  due := fun _ he => by cases he
  begun := Time.le_refl _
  ordered := List.Pairwise.nil
  nextUid_pos := Nat.le_refl 1

/-! ### What the numbers say -/

theorem mem_storedUids {e : Event (Payload α)} (he : e ∈ k.scheduler.toList) :
    e.key.uid ∈ k.storedUids := List.mem_map.2 ⟨e, he, rfl⟩

theorem Consistent.nodup_stored (c : k.Consistent) : k.storedUids.Nodup :=
  (List.nodup_append.1 c.distinct).1

theorem Consistent.nodup_sets (c : k.Consistent) : (k.pending ++ k.cancelled).Nodup :=
  c.stored.nodup_iff.1 c.nodup_stored

theorem Consistent.not_cancelled {uid : Nat} (c : k.Consistent) (hu : uid ∈ k.pending) :
    uid ∉ k.cancelled := fun hc => (List.nodup_append.1 c.nodup_sets).2.2 uid hu uid hc rfl

theorem Consistent.mem_sets {uid : Nat} (c : k.Consistent) :
    uid ∈ k.storedUids ↔ uid ∈ k.pending ∨ uid ∈ k.cancelled := by
  rw [c.stored.mem_iff, List.mem_append]

/-- The next number is in no book. -/
theorem Consistent.nextUid_fresh (c : k.Consistent) :
    k.nextUid ∉ k.storedUids ++ k.teardownUids := fun hu => by
  have := (c.minted _ hu).2
  omega

/-- Events of different numbers are under different keys. -/
theorem Consistent.distinct_keys (c : k.Consistent) : k.scheduler.Distinct :=
  (List.pairwise_map.1 c.nodup_stored).imp fun hne hs => hne hs.2

/-- In lists without repetition, a number is dropped from the one that holds it. -/
theorem erase_append_erase {l l' : List Nat} (h : (l ++ l').Nodup) (uid : Nat) :
    (l ++ l').erase uid = l.erase uid ++ l'.erase uid := by
  rw [List.erase_append]
  split
  · rename_i hu
    rw [List.erase_of_not_mem fun hu' => (List.nodup_append.1 h).2.2 uid hu uid hu' rfl]
  · rename_i hu
    rw [List.erase_of_not_mem hu]

/-! ### Scheduling -/

theorem Consistent.perm_store (c : k.Consistent) (time : Time) (context : Context)
    (payload : Payload α) : (k.store time context payload).2.scheduler.toList.Perm
      (⟨⟨time, k.nextUid, context⟩, payload⟩ :: k.scheduler.toList) := by
  have hfresh := c.nextUid_fresh
  rw [List.mem_append, not_or] at hfresh
  refine Scheduler.perm_insert fun x hx hs => hfresh.1 ?_
  rw [show k.nextUid = x.key.uid from hs.2]
  exact mem_storedUids hx

theorem Sound.store (s : k.Sound) {time : Time} (ht : k.now ≤ time) (context : Context)
    (payload : Payload α) : (k.store time context payload).2.Sound := by
  have hperm := s.perm_store time context payload
  have huids : (k.store time context payload).2.storedUids.Perm (k.nextUid :: k.storedUids) :=
    hperm.map fun e : Event (Payload α) => e.key.uid
  have hall := huids.append_right k.teardownUids
  refine ⟨?_, s.ordered.insert _, Nat.le_add_left 1 k.nextUid⟩
  constructor
  case stored => exact huids.trans (s.stored.cons _)
  case distinct =>
    refine hall.nodup_iff.2 (List.nodup_cons.2 ⟨s.nextUid_fresh, s.distinct⟩)
  case minted =>
    intro uid hu
    show 1 ≤ uid ∧ uid < k.nextUid + 1
    rcases List.mem_cons.1 (hall.mem_iff.1 hu) with rfl | hu
    · exact ⟨s.nextUid_pos, Nat.lt_succ_self _⟩
    · have := s.minted uid hu
      omega
  case due =>
    intro e he
    rcases List.mem_cons.1 (hperm.mem_iff.1 he) with rfl | he
    · exact ht
    · exact s.due e he
  case begun => exact s.begun

theorem Sound.register (s : k.Sound) (a : α) : (k.register a).2.Sound := by
  have huids : (k.register a).2.teardownUids = k.teardownUids ++ [k.nextUid] := by
    simp [Kernel.register, teardownUids]
  have hall : (k.storedUids ++ (k.register a).2.teardownUids).Perm
      (k.nextUid :: (k.storedUids ++ k.teardownUids)) := by
    rw [huids, ← List.append_assoc]
    exact List.perm_append_singleton _ _
  refine ⟨?_, s.ordered, Nat.le_add_left 1 k.nextUid⟩
  constructor
  case stored => exact s.stored
  case distinct => exact hall.nodup_iff.2 (List.nodup_cons.2 ⟨s.nextUid_fresh, s.distinct⟩)
  case minted =>
    intro uid hu
    show 1 ≤ uid ∧ uid < k.nextUid + 1
    rcases List.mem_cons.1 (hall.mem_iff.1 hu) with rfl | hu
    · exact ⟨s.nextUid_pos, Nat.lt_succ_self _⟩
    · have := s.minted uid hu
      omega
  case due => exact s.due
  case begun => exact s.begun

/-! ### Losing events -/

/-- The books agree after a stored event is gone from all of them, also if the present has moved up
to a time before which nothing is due. -/
theorem Consistent.drop (c : k.Consistent) {e : Event (Payload α)} {rest : Scheduler (Payload α)}
    (hp : k.scheduler.toList.Perm (e :: rest.toList)) {now : Time} (hnow : k.now ≤ now)
    (hdue : ∀ x ∈ rest.toList, now ≤ x.key.time)
    (hs : k'.scheduler = rest) (hpend : k'.pending = k.pending.erase e.key.uid)
    (hcanc : k'.cancelled = k.cancelled.erase e.key.uid) (ht : k'.teardowns = k.teardowns)
    (hn : k'.nextUid = k.nextUid) (hk : k'.now = now) : k'.Consistent := by
  have huids : k.storedUids.Perm (e.key.uid :: k'.storedUids) := by
    have := hp.map fun e : Event (Payload α) => e.key.uid
    rwa [← hs] at this
  have hall : (k.storedUids ++ k.teardownUids).Perm
      (e.key.uid :: (k'.storedUids ++ k'.teardownUids)) := by
    rw [show k'.teardownUids = k.teardownUids by rw [teardownUids, ht]; rfl]
    exact huids.append_right _
  have hmem : e.key.uid ∈ k.pending ++ k.cancelled :=
    c.stored.mem_iff.1 (huids.mem_iff.2 List.mem_cons_self)
  constructor
  case stored =>
    rw [hpend, hcanc, ← erase_append_erase c.nodup_sets]
    exact (huids.symm.trans (c.stored.trans (List.perm_cons_erase hmem))).cons_inv
  case distinct => exact (List.nodup_cons.1 (hall.nodup_iff.1 c.distinct)).2
  case minted =>
    intro uid hu
    rw [hn]
    exact c.minted uid (hall.mem_iff.2 (List.mem_cons_of_mem _ hu))
  case due =>
    intro x hx
    rw [hk]
    rw [hs] at hx
    exact hdue x hx
  case begun =>
    rw [hk]
    exact Time.le_trans c.begun hnow

/-- The books agree after teardown events are gone. -/
theorem Sound.teardowns (s : k.Sound) {l : List (TeardownEvent α)} (hl : l.Sublist k.teardowns) :
    { k with teardowns := l }.Sound := by
  have hall : (k.storedUids ++ l.map TeardownEvent.uid).Sublist
      (k.storedUids ++ k.teardownUids) := (hl.map _).append_left _
  exact
    { s with
      distinct := s.distinct.sublist hall
      minted := fun uid hu => s.minted uid (hall.subset hu) }

theorem Sound.takeTeardown (s : k.Sound) (uid : Nat) : (k.takeTeardown uid).2.Sound :=
  s.teardowns List.eraseP_sublist

/-- The event of a known handle is found under the handle's key. -/
theorem Sound.exists_remove (s : k.Sound) (hk : k.Knows h) (ht : h.kind = .timed)
    (hu : h.uid ∈ k.pending ∨ h.uid ∈ k.cancelled) :
    ∃ e rest, k.scheduler.remove h.key = (some e, rest) ∧ e.key.uid = h.uid ∧
      k.scheduler.toList.Perm (e :: rest.toList) := by
  obtain ⟨x, hx, hxu⟩ := List.mem_map.1 (s.mem_sets.2 hu)
  have hperm := Scheduler.perm_remove k.scheduler h.key
  cases hr : (k.scheduler.remove h.key).1 with
  | none => exact absurd ⟨hk.time ht x hx hxu, hxu⟩ (s.ordered.remove_none hr x hx)
  | some e =>
    rw [hr] at hperm
    exact ⟨e, _, Prod.ext hr rfl, (Scheduler.remove_some hr).2, hperm⟩

theorem Sound.remove (s : k.Sound) (hk : k.Issued h → k.Knows h) : (k.remove h).2.Sound := by
  unfold Kernel.remove
  split
  · rename_i hi
    split
    · exact s.takeTeardown _
    · rename_i ht
      dsimp only
      split
      · rename_i hu
        obtain ⟨e, rest, hr, he, hp⟩ := s.exists_remove (hk hi) ht hu
        have ho := s.ordered.remove h.key
        rw [hr] at ho ⊢
        refine ⟨s.drop hp (Time.le_refl _) (fun x hx => s.due x ?_) rfl ?_ ?_ rfl rfl rfl, ho,
          s.nextUid_pos⟩
        · exact hp.mem_iff.2 (List.mem_cons_of_mem _ hx)
        · rw [he]
        · rw [he]
      · rename_i hu
        rw [not_or] at hu
        rw [List.erase_of_not_mem hu.1, List.erase_of_not_mem hu.2]
        exact s
  · exact s

theorem Sound.cancel (s : k.Sound) : (k.cancel h).2.Sound := by
  unfold Kernel.cancel
  split
  · split
    · exact s.takeTeardown _
    · split
      · rename_i hu
        refine { s with stored := s.stored.trans ?_ }
        show (k.pending ++ k.cancelled).Perm (k.pending.erase h.uid ++ k.cancelled.insert h.uid)
        rw [List.insert_of_not_mem (s.not_cancelled hu)]
        exact ((List.perm_cons_erase hu).append_right _).trans List.perm_middle.symm
      · exact s
  · exact s

/-! ### The run loop and the destruction -/

theorem Sound.attach (s : k.Sound) {b : Backend} (hb : b.isBuiltIn = true) :
    (k.attach b).Sound := by
  have hperm : (k.attach b).scheduler.toList.Perm k.scheduler.toList :=
    Scheduler.perm_migrate s.distinct_keys b
  have huids : (k.attach b).storedUids.Perm k.storedUids :=
    hperm.map fun e : Event (Payload α) => e.key.uid
  have hall := huids.append_right k.teardownUids
  exact
    { stored := huids.trans s.stored
      distinct := hall.nodup_iff.2 s.distinct
      minted := fun uid hu => s.minted uid (hall.mem_iff.1 hu)
      due := fun e he => s.due e (hperm.mem_iff.1 he)
      begun := s.begun
      ordered := Scheduler.ordered_migrate _ hb
      nextUid_pos := s.nextUid_pos }

theorem Sound.skipped {payload : Payload α} (s : k.Sound)
    (hd : k.dequeue = .skipped payload k') : k'.Sound := by
  obtain ⟨e, rest, hp, -, hc, rfl⟩ := dequeue_eq_skipped hd
  have hperm := Scheduler.perm_pop hp
  have hpend : e.key.uid ∉ k.pending := fun h => s.not_cancelled h hc
  refine ⟨s.drop hperm (Time.le_refl _) (fun x hx => s.due x ?_) rfl
    (List.erase_of_not_mem hpend).symm rfl rfl rfl rfl, s.ordered.pop hp, s.nextUid_pos⟩
  exact hperm.mem_iff.2 (List.mem_cons_of_mem _ hx)

theorem Sound.started {e : Event (Payload α)} (s : k.Sound) (hd : k.dequeue = .started e k') :
    k'.Sound := by
  obtain ⟨rest, hp, hc, hle, rfl⟩ := dequeue_eq_started hd
  have hperm := Scheduler.perm_pop hp
  have hfirst := s.ordered.pop_first hp
  refine ⟨s.drop hperm hle (fun x hx => EventKey.time_le_of_not_before (hfirst x ?_)) rfl rfl
    (List.erase_of_not_mem hc).symm rfl rfl rfl, s.ordered.pop hp, s.nextUid_pos⟩
  exact hperm.mem_iff.2 (List.mem_cons_of_mem _ hx)

/-- **The clock does not go back.** -/
theorem Sound.not_past {payload : Payload α} (s : k.Sound) : k.dequeue ≠ .past payload k' := by
  intro hd
  obtain ⟨e, rest, hp, -, hlt, -⟩ := dequeue_eq_past hd
  exact Time.not_lt.2 (s.due e ((Scheduler.perm_pop hp).mem_iff.2 List.mem_cons_self)) hlt

/-- As long as something will run, the run loop is not idle. -/
theorem Sound.dequeue_ne_idle (s : k.Sound) (hs : k.stopping = false) (hf : k.isFinished = false) :
    k.dequeue ≠ .idle := by
  intro hd
  cases hp : k.scheduler.pop with
  | none =>
    have hstored : k.storedUids = [] := by
      rw [storedUids, Scheduler.pop_eq_none.1 hp]
      rfl
    have hsets := s.stored
    rw [hstored] at hsets
    have hnil : k.pending = [] := (List.append_eq_nil_iff.1 hsets.nil_eq.symm).1
    rw [isFinished, hnil] at hf
    cases hf
  | some r =>
    obtain ⟨e, rest⟩ := r
    have he : e ∈ k.scheduler.toList := (Scheduler.perm_pop hp).mem_iff.2 List.mem_cons_self
    by_cases hc : e.key.uid ∈ k.cancelled
    · rw [dequeue_of_pop_cancelled hs hp hc] at hd
      cases hd
    · rw [dequeue_of_pop hs hp hc (s.due e he)] at hd
      cases hd

theorem Sound.sweep (s : k.Sound) : k.sweep.2.Sound where
  stored := .refl _
  distinct := (List.nodup_append.1 s.distinct).2.1
  minted := fun uid hu => s.minted uid (List.mem_append_right _ hu)
  due := fun _ he => by cases he
  begun := s.begun
  ordered := List.Pairwise.nil
  nextUid_pos := s.nextUid_pos

theorem Sound.emptied (s : k.Sound) : k.emptied.Sound := s.sweep.teardowns (List.nil_sublist _)

theorem Sound.stop (s : k.Sound) : k.stop.Sound := ⟨{ s with }, s.ordered, s.nextUid_pos⟩

theorem Sound.beginRun (s : k.Sound) : k.beginRun.Sound := ⟨{ s with }, s.ordered, s.nextUid_pos⟩

theorem Sound.endRun (s : k.Sound) : k.endRun.Sound := ⟨{ s with }, s.ordered, s.nextUid_pos⟩

/-! ### All deeds -/

/-- The kernel may do `d`: only built-in backends are attached, and an event is withdrawn only
through a handle that the kernel knows, unless the handle is foreign. -/
def Admits (k : Kernel α) : Deed α → Prop
  | .attached b => b.isBuiltIn = true
  | .removed h | .cancelled h => k.Issued h → k.Knows h
  | _ => True

/-- **Every deed keeps the books in agreement.** -/
theorem Sound.does (s : k.Sound) (hd : k.Does d k') (ha : k.Admits d) : k'.Sound := by
  cases hd with
  | issued hi =>
    cases hi with
    | stored time context payload ht => exact s.store ht context payload
    | registered a => exact s.register a
  | removed h => exact s.remove ha
  | cancelled h => exact s.cancel
  | attached b => exact s.attach ha
  | stopped => exact s.stop
  | began => exact s.beginRun
  | ended => exact s.endRun
  | started hq => exact s.started hq
  | skipped hq => exact s.skipped hq
  | strayed hq => exact absurd hq s.not_past
  | unwound hq =>
    obtain ⟨rest, ht, rfl⟩ := popTeardown_eq_some.1 hq
    exact s.teardowns (ht ▸ List.sublist_cons_self _ rest)
  | swept ht => exact s.sweep
  | vanished => exact s.emptied

/-! ### Known handles -/

/-- What a deed stores, it stores under a new number. -/
theorem Consistent.does_stored (c : k.Consistent) (hd : k.Does d k') :
    k.nextUid ≤ k'.nextUid ∧
      ∀ e ∈ k'.scheduler.toList, e ∈ k.scheduler.toList ∨ k.nextUid ≤ e.key.uid := by
  have hpop {e : Event (Payload α)} {rest} (hp : k.scheduler.pop = some (e, rest)) :
      ∀ x ∈ rest.toList, x ∈ k.scheduler.toList ∨ k.nextUid ≤ x.key.uid :=
    fun x hx => .inl ((Scheduler.perm_pop hp).mem_iff.2 (List.mem_cons_of_mem _ hx))
  cases hd with
  | issued hi =>
    cases hi with
    | stored time context payload ht =>
      refine ⟨Nat.le_succ _, fun e he => ?_⟩
      rcases List.mem_cons.1 ((c.perm_store time context payload).mem_iff.1 he) with rfl | he
      · exact .inr (Nat.le_refl _)
      · exact .inl he
    | registered a => exact ⟨Nat.le_succ _, fun e he => .inl he⟩
  | removed h =>
    unfold Kernel.remove
    split
    · split
      · exact ⟨Nat.le_refl _, fun e he => .inl he⟩
      · dsimp only
        split
        · refine ⟨Nat.le_refl _, fun e he => .inl ?_⟩
          exact (Scheduler.perm_remove k.scheduler h.key).mem_iff.2 (List.mem_append_right _ he)
        · exact ⟨Nat.le_refl _, fun e he => .inl he⟩
    · exact ⟨Nat.le_refl _, fun e he => .inl he⟩
  | cancelled h =>
    unfold Kernel.cancel
    split
    · split
      · exact ⟨Nat.le_refl _, fun e he => .inl he⟩
      · split <;> exact ⟨Nat.le_refl _, fun e he => .inl he⟩
    · exact ⟨Nat.le_refl _, fun e he => .inl he⟩
  | attached b =>
    refine ⟨Nat.le_refl _, fun e he => .inl ?_⟩
    exact (Scheduler.perm_migrate c.distinct_keys b).mem_iff.1 he
  | stopped => exact ⟨Nat.le_refl _, fun e he => .inl he⟩
  | began => exact ⟨Nat.le_refl _, fun e he => .inl he⟩
  | ended => exact ⟨Nat.le_refl _, fun e he => .inl he⟩
  | started hq =>
    obtain ⟨rest, hp, -, -, rfl⟩ := dequeue_eq_started hq
    exact ⟨Nat.le_refl _, hpop hp⟩
  | skipped hq =>
    obtain ⟨e, rest, hp, -, -, rfl⟩ := dequeue_eq_skipped hq
    exact ⟨Nat.le_refl _, hpop hp⟩
  | strayed hq =>
    obtain ⟨e, rest, hp, -, -, rfl⟩ := dequeue_eq_past hq
    exact ⟨Nat.le_refl _, hpop hp⟩
  | unwound hq =>
    obtain ⟨rest, -, rfl⟩ := popTeardown_eq_some.1 hq
    exact ⟨Nat.le_refl _, fun e he => .inl he⟩
  | swept ht => exact ⟨Nat.le_refl _, fun e he => by cases he⟩
  | vanished => exact ⟨Nat.le_refl _, fun e he => by cases he⟩

/-- A known handle stays known. -/
theorem Knows.does (hk : k.Knows h) (c : k.Consistent) (hd : k.Does d k') : k'.Knows h := by
  obtain ⟨hn, hsub⟩ := c.does_stored hd
  refine ⟨Nat.lt_of_lt_of_le hk.minted hn, fun ht e he hu => ?_⟩
  rcases hsub e he with he | he
  · exact hk.time ht e he hu
  · have := hk.minted
    omega

/-- A handle that a kernel issues is its own, and the kernel knows it. -/
theorem Consistent.knows_issued (c : k.Consistent) (hi : k.Issues d h k') :
    k'.Knows h ∧ h.owner = some k'.id := by
  cases hi with
  | stored time context payload ht =>
    refine ⟨⟨Nat.lt_succ_self k.nextUid, fun _ e he hu => ?_⟩, rfl⟩
    rcases List.mem_cons.1 ((c.perm_store time context payload).mem_iff.1 he) with rfl | he
    · rfl
    · have hu' : e.key.uid = k.nextUid := hu
      exact absurd (List.mem_append_left _ (mem_storedUids he)) (hu' ▸ c.nextUid_fresh)
  | registered a => exact ⟨⟨Nat.lt_succ_self k.nextUid, fun ht => by cases ht⟩, rfl⟩

theorem Does.id_eq (hd : k.Does d k') : k'.id = k.id := by
  cases hd with
  | issued hi => cases hi <;> rfl
  | removed h =>
    unfold Kernel.remove
    split
    · split
      · rfl
      · dsimp only
        split <;> rfl
    · rfl
  | cancelled h =>
    unfold Kernel.cancel
    split
    · split
      · rfl
      · split <;> rfl
    · rfl
  | started hq =>
    obtain ⟨rest, -, -, -, rfl⟩ := dequeue_eq_started hq
    rfl
  | skipped hq =>
    obtain ⟨e, rest, -, -, -, rfl⟩ := dequeue_eq_skipped hq
    rfl
  | strayed hq =>
    obtain ⟨e, rest, -, -, -, rfl⟩ := dequeue_eq_past hq
    rfl
  | unwound hq =>
    obtain ⟨rest, -, rfl⟩ := popTeardown_eq_some.1 hq
    rfl
  | _ => rfl

end Kernel

end EventSim
