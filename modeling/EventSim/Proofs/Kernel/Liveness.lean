import EventSim.Proofs.Kernel.Record

/-!
# How long a handle is live

A handle is live from the call that answered it on, until its event starts, is withdrawn, or goes
with the rest in a destruction: `Note.Ends` says which notes are the end of a handle.  `Tracked`
states this for all handles in the record of a kernel, and `Tracked.does` that every deed keeps it.
As a record only grows, **a handle that has expired stays expired**.

On an expired handle the calls have no effect, except that a removal still takes out an event that
was cancelled and has not come out yet.
-/

namespace EventSim

variable {α : Type}

/-- From then on the event of the handle will not run. -/
def Note.Ends (h : Handle) : Note α → Prop
  | .started e => h.kind = .timed ∧ e.key.uid = h.uid
  | .unwound e => h.kind = .teardown ∧ e.uid = h.uid
  | .withdrawn g _ => g.kind = h.kind ∧ g.uid = h.uid
  | .swept _ | .vanished _ => True
  | .issued .. | .skipped _ | .ended => False

/-- The handle was issued and nothing has ended it since. -/
def LiveIn (r : List (Note α)) (h : Handle) : Prop :=
  ∃ payload later earlier, r = later ++ .issued h payload :: earlier ∧ ∀ n ∈ later, ¬ n.Ends h

namespace Kernel

variable {k k' : Kernel α} {h : Handle} {d : Deed α} {n : Option (Note α)} {r : List (Note α)}

/-- The numbers of the events that will run. -/
def liveUids (k : Kernel α) : EventKind → List Nat
  | .timed => k.pending
  | .teardown => k.teardownUids

theorem isExpired_eq_false : k.isExpired h = false ↔ k.Issued h ∧ h.uid ∈ k.liveUids h.kind := by
  by_cases hi : k.Issued h
  · cases ht : h.kind <;> simp [isExpired, hi, ht, liveUids, teardownUids]
  · simp [isExpired, hi]

theorem isExpired_eq_true : k.isExpired h = true ↔ (k.Issued h → h.uid ∉ k.liveUids h.kind) := by
  rw [← not_iff_not, Bool.not_eq_true, isExpired_eq_false, Classical.not_imp, not_not]

theorem Consistent.nodup_teardownUids (c : k.Consistent) : k.teardownUids.Nodup :=
  (List.nodup_append.1 c.distinct).2.1

theorem Consistent.nodup_pending (c : k.Consistent) : k.pending.Nodup :=
  (List.nodup_append.1 c.nodup_sets).1

/-- An event that was there already is live after a deed if it was live before and the deed is not
its end. -/
theorem Sound.mem_liveUids_iff (s : k.Sound) (he : k.Effect n k') (hu : h.uid < k.nextUid) :
    h.uid ∈ k'.liveUids h.kind ↔ h.uid ∈ k.liveUids h.kind ∧ ∀ x ∈ n, ¬ x.Ends h := by
  have herase (uid : Nat) : h.uid ∈ k.pending.erase uid ↔ h.uid ∈ k.pending ∧ uid ≠ h.uid := by
    rw [s.nodup_pending.mem_erase_iff, and_comm, ne_comm]
  have htail {e : TeardownEvent α} {l : List (TeardownEvent α)} (hp : k.teardowns.Perm (e :: l)) :
      h.uid ∈ l.map TeardownEvent.uid ↔ h.uid ∈ k.teardownUids ∧ e.uid ≠ h.uid := by
    have hperm : k.teardownUids.Perm (e.uid :: l.map TeardownEvent.uid) := hp.map _
    have hnodup := List.nodup_cons.1 (hperm.nodup_iff.1 s.nodup_teardownUids)
    rw [hperm.mem_iff, List.mem_cons]
    refine ⟨fun hm => ⟨.inr hm, fun heq => hnodup.1 (heq ▸ hm)⟩, ?_⟩
    rintro ⟨heq | hm, hne⟩
    · exact absurd heq.symm hne
    · exact hm
  have hne : h.uid ≠ k.nextUid := Nat.ne_of_lt hu
  cases he with
  | still ha => cases hk : h.kind <;> simp [liveUids, teardownUids, ha.pending, ha.teardowns]
  | ended => cases hk : h.kind <;> simp [liveUids, Note.Ends, Kernel.endRun, teardownUids]
  | stored => cases hk : h.kind <;> simp [liveUids, Note.Ends, Kernel.store, teardownUids, hne]
  | registered =>
    cases hk : h.kind <;> simp [liveUids, Note.Ends, Kernel.register, teardownUids, hne]
  | unmoved hg hx =>
    refine ⟨fun hl => ⟨hl, ?_⟩, And.left⟩
    rintro x ⟨rfl⟩ ⟨hkind, huid⟩
    exact isExpired_eq_true.1 hx hg (hkind ▸ huid ▸ hl)
  | marked hg hk hp => cases hk' : h.kind <;> simp [liveUids, teardownUids, Note.Ends, *]
  | dropped hg hk heq hp => cases hk' : h.kind <;> simp [liveUids, teardownUids, Note.Ends, *]
  | dismissed hg hk heq hp =>
    cases hk' : h.kind with
    | timed => simp [liveUids, Note.Ends, hk, hk']
    | teardown => simpa [liveUids, Note.Ends, hk, hk', ← heq, teardownUids] using htail hp
  | started => cases hk : h.kind <;> simp [liveUids, teardownUids, Note.Ends, herase, hk]
  | skipped => cases hk : h.kind <;> simp [liveUids, teardownUids, Note.Ends]
  | unwound ht =>
    cases hk : h.kind with
    | timed => simp [liveUids, Note.Ends, hk]
    | teardown => simpa [liveUids, Note.Ends, hk, teardownUids] using htail (.of_eq ht)
  | swept ht => cases hk : h.kind <;> simp [liveUids, Note.Ends, Kernel.sweep, teardownUids, ht]
  | vanished =>
    cases hk : h.kind <;> simp [liveUids, Note.Ends, Kernel.emptied, Kernel.sweep, teardownUids]

/-! ### Handles and the record -/

/-- The kernel knows the handles that it has issued, and they are live as long as nothing was noted
that is their end. -/
structure Tracked (k : Kernel α) (r : List (Note α)) : Prop where
  known : ∀ h p, .issued h p ∈ r → k.Issued h ∧ k.Knows h
  live : ∀ h p later earlier, r = later ++ .issued h p :: earlier →
    (k.isExpired h = false ↔ ∀ n ∈ later, ¬ n.Ends h)

theorem tracked_fresh (id : KernelId) (systemId : UInt32) :
    (fresh id systemId : Kernel α).Tracked [] where
  known := fun _ _ hm => by cases hm
  live := fun _ _ later _ hr => by cases later <;> cases hr

/-- A handle that was just issued is live. -/
theorem Issues.isExpired (hi : k.Issues d h k') : k'.isExpired h = false := by
  rw [isExpired_eq_false]
  cases hi with
  | stored => exact ⟨rfl, List.mem_cons_self⟩
  | registered => exact ⟨rfl, by simp [liveUids, Handle.ofTeardown, Kernel.register, teardownUids]⟩

/-- A note that tells of a handle is made when the handle is issued. -/
theorem Effect.issues {p : Payload α} (he : k.Effect n k') (hn : n = some (.issued h p)) :
    ∃ d, k.Issues d h k' := by
  cases he with
  | stored time context payload ht =>
    cases hn
    exact ⟨_, .stored k time context p ht⟩
  | registered a =>
    cases hn
    exact ⟨_, .registered k a⟩
  | still => cases hn
  | _ => cases hn

/-- Liveness of a known handle over one deed. -/
theorem Sound.isExpired_iff (s : k.Sound) (hd : k.Does d k') (he : k.Effect n k')
    (hk : k.Issued h ∧ k.Knows h) :
    k'.isExpired h = false ↔ k.isExpired h = false ∧ ∀ x ∈ n, ¬ x.Ends h := by
  have hi : k'.Issued h ↔ k.Issued h := by rw [Issued, hd.id_eq, ← Issued]
  rw [isExpired_eq_false, isExpired_eq_false, s.mem_liveUids_iff he hk.2.minted, hi, and_assoc]

/-- **Every deed keeps track of the handles.** -/
theorem Tracked.does (s : k.Sound) (hd : k.Does d k') (he : k.Effect n k') (ht : k.Tracked r) :
    k'.Tracked (n.toList ++ r) := by
  constructor
  case known =>
    intro h p hm
    rcases List.mem_append.1 hm with hm | hm
    · obtain ⟨d', hi⟩ := he.issues (Option.mem_toList.1 hm)
      exact (s.knows_issued hi).symm
    · obtain ⟨hi, hk⟩ := ht.known h p hm
      exact ⟨hi.trans (congrArg some hd.id_eq.symm), hk.does s.toConsistent hd⟩
  case live =>
    intro h p later earlier hr
    cases n with
    | none =>
      have hk := ht.known h p (by rw [← List.nil_append r, ← Option.toList_none, hr]; simp)
      rw [s.isExpired_iff hd he hk, ht.live h p later earlier hr]
      simp
    | some x =>
      cases later with
      | nil =>
        cases hr
        obtain ⟨d', hi⟩ := he.issues rfl
        simp [hi.isExpired]
      | cons y later =>
        obtain ⟨hx, htail⟩ : x = y ∧ r = later ++ .issued h p :: earlier := List.cons.inj hr
        have hk := ht.known h p (by rw [htail]; simp)
        rw [s.isExpired_iff hd he hk, ht.live h p later earlier htail, ← hx]
        simp [and_comm]

/-- **A handle is live if it was issued and nothing has ended it since.**  The record is to tell of
the handle if it is one of this kernel. -/
theorem Tracked.isExpired_eq_false_iff (ht : k.Tracked r)
    (hh : k.Issued h → ∃ payload, .issued h payload ∈ r) :
    k.isExpired h = false ↔ LiveIn r h := by
  constructor
  · intro hl
    obtain ⟨payload, hm⟩ := hh (isExpired_eq_false.1 hl).1
    obtain ⟨later, earlier, hr⟩ := List.append_of_mem hm
    exact ⟨payload, later, earlier, hr, (ht.live h payload later earlier hr).1 hl⟩
  · rintro ⟨payload, later, earlier, hr, hn⟩
    exact (ht.live h payload later earlier hr).2 hn

/-- A handle that has expired stays so while the record grows. -/
theorem Tracked.isExpired_of_suffix {r' : List (Note α)} (ht : k.Tracked r) (ht' : k'.Tracked r')
    (hid : k'.id = k.id) (hs : r <:+ r') (hh : k.Issued h → ∃ payload, .issued h payload ∈ r)
    (hx : k.isExpired h = true) : k'.isExpired h = true := by
  by_cases hi : k.Issued h
  · obtain ⟨payload, hm⟩ := hh hi
    obtain ⟨later, earlier, rfl⟩ := List.append_of_mem hm
    obtain ⟨more, rfl⟩ := hs
    rw [← List.append_assoc] at ht'
    rw [← Bool.not_eq_false, ht.live h payload later earlier rfl] at hx
    rw [← Bool.not_eq_false, ht'.live h payload (more ++ later) earlier rfl]
    exact fun hn => hx fun n hm => hn n (List.mem_append_right _ hm)
  · rw [isExpired_eq_true]
    intro hi'
    exact absurd (hi'.trans (congrArg some hid)) hi

/-! ### Calls on an expired handle -/

theorem cancel_of_isExpired (hx : k.isExpired h = true) : k.cancel h = (none, k) := by
  unfold Kernel.cancel
  split
  · rename_i hi
    have hu := isExpired_eq_true.1 hx hi
    split
    · rename_i hk
      rw [hk] at hu
      have ht := teardownOf_eq_none.2 hu
      exact Prod.ext (congrArg (Option.map TeardownEvent.action) ht) (takeTeardown_of_none ht)
    · rename_i hk
      rw [hk] at hu
      exact if_neg hu
  · rfl

/-- What is taken out by the removal of an event that was cancelled and is still stored. -/
theorem Sound.remove_of_isExpired (s : k.Sound) (hk : k.Issued h → k.Knows h)
    (hx : k.isExpired h = true) :
    if k.Issued h ∧ h.kind = .timed ∧ h.uid ∈ k.cancelled then
      ∃ e rest, e.key.Same h.key ∧ k.scheduler.toList.Perm (e :: rest.toList) ∧
        k.remove h = (e.payload.action?,
          { k with scheduler := rest, cancelled := k.cancelled.erase h.uid })
    else k.remove h = (none, k) := by
  unfold Kernel.remove
  by_cases hi : k.Issued h
  · have hu := isExpired_eq_true.1 hx hi
    rw [if_pos hi]
    cases ht : h.kind with
    | teardown =>
      rw [ht] at hu
      have hnone := teardownOf_eq_none.2 hu
      rw [if_neg (by simp)]
      exact Prod.ext (congrArg (Option.map TeardownEvent.action) hnone)
        (takeTeardown_of_none hnone)
    | timed =>
      rw [ht] at hu
      have hu : h.uid ∉ k.pending := hu
      by_cases hc : h.uid ∈ k.cancelled
      · obtain ⟨e, rest, hr, -, hp⟩ := s.exists_remove (hk hi) ht (.inr hc)
        rw [if_pos ⟨hi, rfl, hc⟩]
        refine ⟨e, rest, Scheduler.remove_some (congrArg Prod.fst hr), hp, ?_⟩
        simp only [if_pos (Or.inr hc : h.uid ∈ k.pending ∨ h.uid ∈ k.cancelled), hr,
          List.erase_of_not_mem hu, Option.bind_some]
      · rw [if_neg (by simp [hc])]
        have hnone : ¬ (h.uid ∈ k.pending ∨ h.uid ∈ k.cancelled) := not_or.2 ⟨hu, hc⟩
        simp only [if_neg hnone, List.erase_of_not_mem hu, List.erase_of_not_mem hc]
  · rw [if_neg fun hc => hi hc.1, if_neg hi]

theorem delayLeft_of_isExpired (hx : k.isExpired h = true) :
    k.delayLeft h = .ok (.error (.expiredHandle h.uid)) := if_pos hx

/-- A time that is not before another one, which is not before the start of virtual time, is less
than the greatest time away. -/
theorem exists_sub {a b : Time} (hb : .zero ≤ b) (h : b ≤ a) :
    ∃ c, a.sub b = .ok c := by
  rw [Time.le_def] at hb h
  have hzero : Time.zero.ticks = 0 := rfl
  have := a.le_max
  have := b.min_le
  have hr : minTicks ≤ a.ticks - b.ticks ∧ a.ticks - b.ticks ≤ maxTicks := by
    unfold minTicks
    omega
  refine ⟨⟨_, hr.1, hr.2⟩, ?_⟩
  rw [Time.sub, Time.checkedSub, Time.ofInt?, dif_pos hr]
  rfl

/-- A live handle has a delay left. -/
theorem Sound.delayLeft_of_live (s : k.Sound) (hk : k.Knows h) (hl : k.isExpired h = false) :
    ∃ left, k.delayLeft h = .ok (.ok left) := by
  have hu := (isExpired_eq_false.1 hl).2
  rw [delayLeft, if_neg (by simp [hl])]
  cases ht : h.kind with
  | teardown =>
    obtain ⟨c, hc⟩ := exists_sub (a := .greatest) s.begun k.now.le_max
    exact ⟨c, by simp only [hc]⟩
  | timed =>
    rw [ht] at hu
    obtain ⟨e, he, heq⟩ := List.mem_map.1 (s.mem_sets.2 (.inl hu))
    obtain ⟨c, hc⟩ := exists_sub (a := h.time) s.begun (hk.time ht e he heq ▸ s.due e he)
    exact ⟨c, by simp only [hc]⟩

end Kernel

end EventSim
