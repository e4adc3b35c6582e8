import EventSim.Proofs.Kernel.Record
import Mathlib.Data.List.Perm.Subperm

/-!
# Numbers that were handed out

A kernel is `Tallied` if the numbers of its events are different and below the next one.  This is
less than a `Sound` kernel has, and **every deed keeps it** (`Tallied.does`), whatever backend is
attached and wherever a handle comes from.

A number is `Spent` if it was handed out and no event of the kernel has it any more.  Nothing brings
it back (`Spent.does`), and an event that starts spends its number (`Tallied.spends`).  So numbers
name events for good, in every program.
-/

namespace EventSim

variable {α β : Type}

theorem subperm_map {l l' : List α} (f : α → β) (h : l.Subperm l') :
    (l.map f).Subperm (l'.map f) := by
  obtain ⟨m, hp, hs⟩ := h
  exact ⟨m.map f, hp.map f, hs.map f⟩

/-- Of fewer events the numbers are still different. -/
theorem nodup_of_subperm {l l' : List (Item α)} (h : l.Subperm l')
    (hn : (l'.map Item.uid).Nodup) : (l.map Item.uid).Nodup := by
  obtain ⟨m, hp, hs⟩ := subperm_map Item.uid h
  exact hp.nodup_iff.1 (hn.sublist hs)

namespace Deed

/-- What the deed puts into the books. -/
def accepted : Deed α → List (Item α)
  | stored key payload => [⟨key.uid, payload⟩]
  | registered e => [e.item]
  | _ => []

/-- What starts by the deed. -/
def invoked : Deed α → List (Item α)
  | started e => [e.item]
  | unwound e => [e.item]
  | _ => []

end Deed

namespace Kernel

variable {k k' : Kernel α} {d : Deed α} {i : Item α} {uid : Nat}

/-- The numbers of the events are different, and they were handed out. -/
structure Tallied (k : Kernel α) : Prop where
  distinct : (k.items.map Item.uid).Nodup
  minted : ∀ i ∈ k.items, i.uid < k.nextUid

theorem tallied_fresh (id : KernelId) (systemId : UInt32) :
    (fresh id systemId : Kernel α).Tallied where
  distinct := List.nodup_nil
  minted := fun _ hi => by cases hi

theorem Tallied.distinct_keys (t : k.Tallied) : k.scheduler.Distinct := by
  have huids : (k.storedItems.map Item.uid).Nodup := by
    have h := t.distinct
    rw [items, List.map_append] at h
    exact (List.nodup_append.1 h).1
  have hkeys : k.scheduler.toList.Pairwise fun x y => x.key.uid ≠ y.key.uid := by
    rw [storedItems, List.map_map] at huids
    exact List.pairwise_map.1 huids
  exact hkeys.imp fun hne hs => hne hs.2

theorem Tallied.perm_store (t : k.Tallied) (time : Time) (context : Context)
    (payload : Payload α) : (k.store time context payload).2.scheduler.toList.Perm
      (⟨⟨time, k.nextUid, context⟩, payload⟩ :: k.scheduler.toList) := by
  refine Scheduler.perm_insert fun x hx hs => ?_
  have hlt : x.key.uid < k.nextUid :=
    t.minted x.item (List.mem_append_left _ (List.mem_map.2 ⟨x, hx, rfl⟩))
  exact absurd (show k.nextUid = x.key.uid from hs.2) (Nat.ne_of_gt hlt)

/-! ### The balance of a deed -/

/-- Fewer events in the scheduler are fewer in the books. -/
theorem items_subperm {s : Scheduler (Payload α)} {l : List (TeardownEvent α)}
    (hs : s.toList.Subperm k.scheduler.toList) (ht : l.Subperm k.teardowns) :
    ({ k with scheduler := s, teardowns := l } : Kernel α).items.Subperm k.items :=
  (subperm_map _ hs).append (subperm_map _ ht)

theorem items_takeTeardown (k : Kernel α) (uid : Nat) :
    (k.takeTeardown uid).2.items.Subperm k.items :=
  items_subperm (.refl _) List.eraseP_sublist.subperm

theorem items_remove (k : Kernel α) (h : Handle) : (k.remove h).2.items.Subperm k.items := by
  unfold remove
  split
  · split
    · exact k.items_takeTeardown _
    · dsimp only
      split
      · have hp := Scheduler.perm_remove k.scheduler h.key
        have hs := (List.sublist_append_right _ _).subperm.trans hp.symm.subperm
        exact items_subperm hs (.refl _)
      · exact .refl _
  · exact .refl _

theorem items_cancel (k : Kernel α) (h : Handle) : (k.cancel h).2.items.Subperm k.items := by
  unfold cancel
  split
  · split
    · exact k.items_takeTeardown _
    · split <;> exact .refl _
  · exact .refl _

/-- An event that goes from the scheduler goes from the books. -/
theorem items_of_pop {e : Event (Payload α)} {rest : Scheduler (Payload α)}
    (hp : k.scheduler.pop = some (e, rest)) :
    (e.item :: ({ k with scheduler := rest } : Kernel α).items).Perm k.items :=
  ((Scheduler.perm_pop hp).symm.map Event.item).append_right _

/-- **What a deed starts or leaves in the books was there before, or the deed accepts it.** -/
theorem Tallied.balance (t : k.Tallied) (hd : k.Does d k') :
    (d.invoked ++ k'.items).Subperm (d.accepted ++ k.items) := by
  cases hd with
  | issued hi =>
    cases hi with
    | stored time context payload ht =>
      exact (((t.perm_store time context payload).map Event.item).append_right _).subperm
    | registered a =>
      have hr : (k.register a).2.items = k.items ++ [⟨k.nextUid, .act a⟩] := by
        simp [register, items, storedItems, teardownItems, TeardownEvent.item]
      show (k.register a).2.items.Subperm (⟨k.nextUid, .act a⟩ :: k.items)
      rw [hr]
      exact (List.perm_append_singleton _ _).subperm
  | removed h => exact k.items_remove h
  | cancelled h => exact k.items_cancel h
  | attached b =>
    exact items_subperm (Scheduler.perm_migrate t.distinct_keys b).subperm (.refl _)
  | stopped | began | ended => exact .refl _
  | started hq =>
    obtain ⟨rest, hp, -, -, rfl⟩ := dequeue_eq_started hq
    exact (items_of_pop hp).subperm
  | skipped hq =>
    obtain ⟨e, rest, hp, rfl, -, rfl⟩ := dequeue_eq_skipped hq
    exact (List.sublist_cons_self e.item _).subperm.trans (items_of_pop hp).subperm
  | strayed hq =>
    obtain ⟨e, rest, hp, rfl, -, rfl⟩ := dequeue_eq_past hq
    exact (List.sublist_cons_self e.item _).subperm.trans (items_of_pop hp).subperm
  | @unwound _ e hq =>
    obtain ⟨rest, ht, rfl⟩ := popTeardown_eq_some.1 hq
    have hitems : k.items = k.storedItems ++ e.item :: rest.map TeardownEvent.item :=
      congrArg (_ ++ List.map _ ·) ht
    show List.Subperm (e.item :: (k.storedItems ++ rest.map _)) k.items
    rw [hitems]
    exact List.perm_middle.symm.subperm
  | swept ht => exact (List.sublist_append_right k.storedItems _).subperm
  | vanished => exact (List.nil_sublist _).subperm

/-- What a deed accepts has the next number. -/
theorem Does.accepted (hd : k.Does d k') :
    d.accepted = [] ∧ k'.nextUid = k.nextUid ∨
      ∃ payload, d.accepted = [⟨k.nextUid, payload⟩] ∧ k'.nextUid = k.nextUid + 1 := by
  cases hd with
  | issued hi => cases hi <;> exact .inr ⟨_, rfl, rfl⟩
  | removed h =>
    refine .inl ⟨rfl, ?_⟩
    unfold Kernel.remove
    split
    · split
      · rfl
      · dsimp only
        split <;> rfl
    · rfl
  | cancelled h =>
    refine .inl ⟨rfl, ?_⟩
    unfold Kernel.cancel
    split
    · split
      · rfl
      · split <;> rfl
    · rfl
  | started hq =>
    obtain ⟨rest, -, -, -, rfl⟩ := dequeue_eq_started hq
    exact .inl ⟨rfl, rfl⟩
  | skipped hq =>
    obtain ⟨e, rest, -, -, -, rfl⟩ := dequeue_eq_skipped hq
    exact .inl ⟨rfl, rfl⟩
  | strayed hq =>
    obtain ⟨e, rest, -, -, -, rfl⟩ := dequeue_eq_past hq
    exact .inl ⟨rfl, rfl⟩
  | unwound hq =>
    obtain ⟨rest, -, rfl⟩ := popTeardown_eq_some.1 hq
    exact .inl ⟨rfl, rfl⟩
  | _ => exact .inl ⟨rfl, rfl⟩

/-! ### What stays so -/

/-- Together with what a deed accepts, the numbers in the books are different. -/
theorem Tallied.accepts (t : k.Tallied) (hd : k.Does d k') :
    ((d.accepted ++ k.items).map Item.uid).Nodup ∧
      ∀ i ∈ d.accepted ++ k.items, i.uid < k'.nextUid := by
  rcases hd.accepted with ⟨hn, hu⟩ | ⟨payload, hn, hu⟩
  · rw [hn, hu]
    exact ⟨t.distinct, t.minted⟩
  · rw [hn, hu]
    refine ⟨List.nodup_cons.2 ⟨fun hm => ?_, t.distinct⟩, ?_⟩
    · obtain ⟨i, hi, hiu⟩ := List.mem_map.1 hm
      exact absurd hiu (Nat.ne_of_lt (t.minted i hi))
    · exact List.forall_mem_cons.2
        ⟨Nat.lt_succ_self _, fun i hi => Nat.lt_succ_of_lt (t.minted i hi)⟩

/-- **Every deed keeps the numbers different.** -/
theorem Tallied.does (t : k.Tallied) (hd : k.Does d k') : k'.Tallied := by
  obtain ⟨hnodup, hlt⟩ := t.accepts hd
  have hsub : k'.items.Subperm (d.accepted ++ k.items) :=
    (List.sublist_append_right _ _).subperm.trans (t.balance hd)
  exact ⟨nodup_of_subperm hsub hnodup, fun i hi => hlt i (hsub.subset hi)⟩

/-- The number was handed out, and no event has it any more. -/
structure Spent (k : Kernel α) (uid : Nat) : Prop where
  minted : uid < k.nextUid
  gone : ∀ i ∈ k.items, i.uid ≠ uid

/-- **A number that is spent stays spent.** -/
theorem Spent.does (s : k.Spent uid) (t : k.Tallied) (hd : k.Does d k') : k'.Spent uid := by
  have hle : k.nextUid ≤ k'.nextUid := by
    rcases hd.accepted with ⟨-, hu⟩ | ⟨-, -, hu⟩ <;> omega
  refine ⟨Nat.lt_of_lt_of_le s.minted hle, fun i hi => ?_⟩
  rcases List.mem_append.1 ((t.balance hd).subset (List.mem_append_right _ hi)) with hi | hi
  · rcases hd.accepted with ⟨hn, -⟩ | ⟨payload, hn, -⟩
    · rw [hn] at hi
      cases hi
    · rw [hn] at hi
      rw [List.mem_singleton.1 hi]
      exact Nat.ne_of_gt s.minted
  · exact s.gone i hi

/-- An event that starts was in the books and spends its number. -/
theorem Tallied.spends (t : k.Tallied) (hd : k.Does d k') (hn : d.accepted = [])
    (hi : d.invoked = [i]) : i ∈ k.items ∧ k'.Spent i.uid := by
  have hsub : (i :: k'.items).Subperm k.items := by
    have hb := t.balance hd
    rwa [hn, hi] at hb
  have hnodup := nodup_of_subperm hsub t.distinct
  have hmem : i ∈ k.items := hsub.subset List.mem_cons_self
  have hu : k'.nextUid = k.nextUid := by
    rcases hd.accepted with ⟨-, hu⟩ | ⟨payload, hp, -⟩
    · exact hu
    · rw [hn] at hp
      cases hp
  refine ⟨hmem, hu ▸ t.minted i hmem, fun j hj hju => ?_⟩
  exact (List.nodup_cons.1 hnodup).1 (List.mem_map.2 ⟨j, hj, hju⟩)

end Kernel

end EventSim
