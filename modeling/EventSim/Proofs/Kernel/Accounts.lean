import EventSim.Proofs.Kernel.Record

/-!
# What becomes of accepted events

An event that a kernel has accepted stands in its books until it is invoked or given up.  The record
tells of all three: `Note.accepted`, `Note.invoked` and `Note.givenUp` read off a note what it
accepts, invokes and gives up.  `Accounted` says that **what was accepted is, each event once, what
stands in the books, what was invoked and what was given up**; as numbers are not used twice, the
three have no event in common.

An event that is withdrawn while its handle is live is `Doomed`: it is marked or given up, and it
will never be invoked.
-/

namespace EventSim

variable {α : Type}

/-- What is taken into the books. -/
def Note.accepted : Note α → List (Item α)
  | .issued h payload => [⟨h.uid, payload⟩]
  | _ => []

/-- What starts. -/
def Note.invoked : Note α → List (Item α)
  | .started e => [e.item]
  | .unwound e => [e.item]
  | _ => []

/-- What goes without having started. -/
def Note.givenUp : Note α → List (Item α)
  | .withdrawn _ lost | .swept lost | .vanished lost => lost
  | .skipped e => [e.item]
  | .issued .. | .started _ | .unwound _ | .ended => []

/-- All that was accepted, the newest first. -/
def acceptedIn (r : List (Note α)) : List (Item α) := r.flatMap Note.accepted

/-- All that was invoked, the newest first. -/
def invokedIn (r : List (Note α)) : List (Item α) := r.flatMap Note.invoked

/-- All that was given up, the newest first. -/
def givenUpIn (r : List (Note α)) : List (Item α) := r.flatMap Note.givenUp

namespace Kernel

variable {k k' : Kernel α} {h : Handle} {n : Option (Note α)} {r : List (Note α)}
  {lost : List (Item α)} {uid : Nat}

/-! ### The balance of a deed -/

theorem storedItems_uids (k : Kernel α) : k.storedItems.map Item.uid = k.storedUids := by
  simp only [storedItems, storedUids, List.map_map]
  rfl

theorem teardownItems_uids (k : Kernel α) : k.teardownItems.map Item.uid = k.teardownUids := by
  simp only [teardownItems, teardownUids, List.map_map]
  rfl

theorem items_uids (k : Kernel α) : k.items.map Item.uid = k.storedUids ++ k.teardownUids := by
  rw [items, List.map_append, storedItems_uids, teardownItems_uids]

/-- An event that goes from the scheduler goes from the books. -/
theorem items_of_perm_stored {e : Event (Payload α)}
    (hp : k.scheduler.toList.Perm (e :: k'.scheduler.toList))
    (ht : k'.teardowns = k.teardowns) : (k'.items ++ [e.item]).Perm k.items := by
  have hs : k.storedItems.Perm (e.item :: k'.storedItems) := hp.map Event.item
  have htd : k'.teardownItems = k.teardownItems := by rw [teardownItems, ht, ← teardownItems]
  refine (List.perm_append_singleton _ _).trans ?_
  rw [items, items, htd]
  exact (hs.append_right _).symm

/-- A teardown event that goes from its list goes from the books. -/
theorem items_of_perm_teardowns {e : TeardownEvent α} (hp : k.teardowns.Perm (e :: k'.teardowns))
    (hs : k'.scheduler = k.scheduler) : (k'.items ++ [e.item]).Perm k.items := by
  have ht : k.teardownItems.Perm (e.item :: k'.teardownItems) := hp.map TeardownEvent.item
  have hst : k'.storedItems = k.storedItems := by rw [storedItems, hs, ← storedItems]
  refine (List.perm_append_singleton _ _).trans ?_
  rw [items, items, hst]
  exact List.perm_middle.symm.trans (ht.symm.append_left _)

/-- **What a deed leaves in the books, invokes and gives up is what it accepts and what was
there.** -/
theorem Sound.balance (s : k.Sound) (he : k.Effect n k') :
    (k'.items ++ (invokedIn n.toList ++ givenUpIn n.toList)).Perm
      (acceptedIn n.toList ++ k.items) := by
  cases he with
  | still ha =>
    have hs : k'.storedItems.Perm k.storedItems := ha.stored.map Event.item
    have ht : k'.teardownItems = k.teardownItems := by
      rw [teardownItems, ha.teardowns, ← teardownItems]
    show (k'.items ++ []).Perm k.items
    rw [List.append_nil, items, items, ht]
    exact hs.append_right _
  | stored time context payload ht =>
    have hs := (s.perm_store time context payload).map Event.item
    show ((k.store time context payload).2.items ++ []).Perm (⟨k.nextUid, payload⟩ :: k.items)
    rw [List.append_nil]
    exact hs.append_right k.teardownItems
  | registered a =>
    have hr : (k.register a).2.items = k.items ++ [⟨k.nextUid, .act a⟩] := by
      simp [Kernel.register, items, storedItems, teardownItems, TeardownEvent.item]
    show ((k.register a).2.items ++ []).Perm (⟨k.nextUid, .act a⟩ :: k.items)
    rw [List.append_nil, hr]
    exact List.perm_append_singleton _ _
  | dropped _ _ _ hp => exact items_of_perm_stored hp rfl
  | dismissed _ _ _ hp => exact items_of_perm_teardowns hp rfl
  | started hp => exact items_of_perm_stored hp rfl
  | skipped hp => exact items_of_perm_stored hp rfl
  | unwound ht => exact items_of_perm_teardowns (.of_eq ht) rfl
  | swept ht =>
    simp [invokedIn, givenUpIn, acceptedIn, Note.invoked, Note.givenUp, Note.accepted, items,
      Kernel.sweep, storedItems, teardownItems, ht]
  | vanished =>
    simp [invokedIn, givenUpIn, acceptedIn, Note.invoked, Note.givenUp, Note.accepted, items,
      Kernel.emptied, Kernel.sweep, storedItems, teardownItems]
  | _ => exact .of_eq (List.append_nil _)

/-! ### The books and the record -/

/-- What was accepted stands in the books, was invoked or was given up, each event once. -/
structure Accounted (k : Kernel α) (r : List (Note α)) : Prop where
  balance : (k.items ++ (invokedIn r ++ givenUpIn r)).Perm (acceptedIn r)
  distinct : ((acceptedIn r).map Item.uid).Nodup
  minted : ∀ i ∈ acceptedIn r, i.uid < k.nextUid
  /-- Nothing is left right after a destruction. -/
  swept : ∀ lost earlier, r = .swept lost :: earlier → k.items = []

theorem accounted_fresh (id : KernelId) (systemId : UInt32) :
    (fresh id systemId : Kernel α).Accounted [] where
  balance := .refl _
  distinct := List.nodup_nil
  minted := fun _ hi => by cases hi
  swept := fun _ _ hr => by cases hr

/-- What a deed accepts has the next number. -/
theorem Effect.accepted (he : k.Effect n k') :
    acceptedIn n.toList = [] ∧ k'.nextUid = k.nextUid ∨
      ∃ payload, acceptedIn n.toList = [⟨k.nextUid, payload⟩] ∧ k'.nextUid = k.nextUid + 1 := by
  cases he with
  | still ha => exact .inl ⟨rfl, ha.nextUid⟩
  | stored => exact .inr ⟨_, rfl, rfl⟩
  | registered => exact .inr ⟨_, rfl, rfl⟩
  | _ => exact .inl ⟨rfl, rfl⟩

theorem acceptedIn_append (l r : List (Note α)) :
    acceptedIn (l ++ r) = acceptedIn l ++ acceptedIn r := List.flatMap_append

theorem invokedIn_append (l r : List (Note α)) :
    invokedIn (l ++ r) = invokedIn l ++ invokedIn r := List.flatMap_append

theorem givenUpIn_append (l r : List (Note α)) :
    givenUpIn (l ++ r) = givenUpIn l ++ givenUpIn r := List.flatMap_append

/-- **Every deed keeps the accounts.** -/
theorem Accounted.effect (s : k.Sound) (he : k.Effect n k') (ha : k.Accounted r) :
    k'.Accounted (n.toList ++ r) := by
  constructor
  case balance =>
    rw [acceptedIn_append, invokedIn_append, givenUpIn_append]
    have hnew := (s.balance he).append_right (invokedIn r ++ givenUpIn r)
    have hold := ha.balance.append_left (acceptedIn n.toList)
    rw [← List.append_assoc] at hold
    refine List.Perm.trans ?_ (hnew.trans hold)
    simp only [List.append_assoc]
    exact ((List.perm_append_comm_assoc ..).append_left _).append_left _
  case distinct =>
    rw [acceptedIn_append]
    rcases he.accepted with ⟨hn, -⟩ | ⟨payload, hn, -⟩
    · rw [hn]
      exact ha.distinct
    · rw [hn]
      refine List.nodup_cons.2 ⟨fun hm => ?_, ha.distinct⟩
      obtain ⟨i, hi, hu⟩ := List.mem_map.1 hm
      exact absurd (hu ▸ ha.minted i hi) (Nat.lt_irrefl _)
  case minted =>
    rw [acceptedIn_append]
    intro i hi
    rcases he.accepted with ⟨hn, hu⟩ | ⟨payload, hn, hu⟩
    · rw [hn] at hi
      exact hu ▸ ha.minted i hi
    · rw [hn] at hi
      rcases List.mem_cons.1 hi with rfl | hi
      · exact hu ▸ Nat.lt_succ_self _
      · exact hu ▸ Nat.lt_succ_of_lt (ha.minted i hi)
  case swept =>
    intro lost earlier hr
    cases he with
    | still hk =>
      have h := ha.swept lost earlier hr
      have hb := s.balance (.still hk)
      rw [h] at hb
      exact (List.append_eq_nil_iff.1 hb.eq_nil).1
    | swept ht => simp [items, storedItems, teardownItems, Kernel.sweep, ht]
    | _ => cases hr

/-- No event is in two of the three places, or twice in one. -/
theorem Accounted.nodup (ha : k.Accounted r) :
    ((k.items ++ (invokedIn r ++ givenUpIn r)).map Item.uid).Nodup :=
  (ha.balance.map Item.uid).nodup_iff.2 ha.distinct

/-! ### Withdrawn events -/

/-- The event of the number will be skipped, or it was given up. -/
def Doomed (k : Kernel α) (r : List (Note α)) (uid : Nat) : Prop :=
  uid ∈ k.cancelled ∨ uid ∈ (givenUpIn r).map Item.uid

theorem Doomed.effect (s : k.Sound) (he : k.Effect n k') (hd : k.Doomed r uid) :
    k'.Doomed (n.toList ++ r) uid := by
  rw [Doomed, givenUpIn_append, List.map_append, List.mem_append]
  rcases hd with hd | hd
  · have hmem : uid ∈ k.storedItems.map Item.uid := by
      rw [storedItems_uids]
      exact s.mem_sets.2 (.inr hd)
    have herase (e : Event (Payload α)) :
        uid ∈ k.cancelled.erase e.key.uid ∨ uid ∈ [e.item].map Item.uid := by
      by_cases hu : uid = e.key.uid
      · exact .inr (List.mem_singleton.2 hu)
      · exact .inl ((List.mem_erase_of_ne hu).2 hd)
    cases he with
    | still ha => exact .inl (ha.cancelled ▸ hd)
    | marked => exact .inl (List.mem_cons_of_mem _ hd)
    | dropped => exact (herase _).imp_right .inl
    | skipped => exact (herase _).imp_right .inl
    | swept => exact .inr (.inl (by simpa [givenUpIn, Note.givenUp] using hmem))
    | vanished =>
      have hitems : uid ∈ k.items.map Item.uid := by
        rw [items, List.map_append]
        exact List.mem_append_left _ hmem
      exact .inr (.inl (by simpa [givenUpIn, Note.givenUp] using hitems))
    | _ => exact .inl hd
  · exact .inr (.inr hd)

/-- An event that is withdrawn while its handle is live is doomed. -/
theorem Effect.doomed (he : k.Effect (some (.withdrawn h lost)) k') (hl : k.isExpired h = false) :
    k'.Doomed (.withdrawn h lost :: r) h.uid := by
  cases he with
  | unmoved _ hx => rw [hl] at hx; cases hx
  | marked => exact .inl List.mem_cons_self
  | dropped _ _ heq => exact .inr (heq ▸ List.mem_cons_self)
  | dismissed _ _ heq => exact .inr (heq ▸ List.mem_cons_self)

theorem Akin.isExpired (ha : k.Akin k') (h : Handle) : k'.isExpired h = k.isExpired h := by
  have hi : k'.Issued h ↔ k.Issued h := by rw [Issued, ha.id, ← Issued]
  simp only [Kernel.isExpired, hi, ha.pending, ha.teardowns]

/-- What is withdrawn while its handle is live stays doomed, whatever the kernel goes through. -/
theorem Undergoes.doomed {l : List (Note α)} (hu : k.Undergoes (.withdrawn h lost :: l) k')
    (s : k.Sound) (hl : k.isExpired h = false) (r : List (Note α)) :
    k'.Doomed (l.reverse ++ .withdrawn h lost :: r) h.uid := by
  generalize hw : .withdrawn h lost :: l = notes at hu
  induction hu with
  | refl => cases hw
  | @does k k₁ k' d l' hd ha hrest ih =>
    have he := s.effect hd ha
    cases hn : k.note? d with
    | none =>
      rw [hn] at he hw
      cases he with
      | still hk => exact ih (s.does hd ha) ((hk.isExpired h).trans hl) hw
    | some n =>
      rw [hn] at he hw
      obtain ⟨rfl, rfl⟩ := List.cons.inj hw
      exact hrest.keeps (I := fun k r => k.Doomed r h.uid) (s.does hd ha)
        (fun s _ he => Doomed.effect s he) (he.doomed hl)

/-- **A doomed event has not been invoked.** -/
theorem Accounted.not_invoked (ha : k.Accounted r) (s : k.Sound) (hd : k.Doomed r uid) :
    uid ∉ (invokedIn r).map Item.uid := by
  have hn := ha.nodup
  rw [List.map_append, List.map_append, List.nodup_append] at hn
  intro hi
  rcases hd with hd | hd
  · refine hn.2.2 uid ?_ uid (List.mem_append_left _ hi) rfl
    rw [items_uids]
    exact List.mem_append_left _ (s.mem_sets.2 (.inr hd))
  · exact (List.nodup_append.1 hn.2.1).2.2 uid hi uid hd rfl

end Kernel

end EventSim
