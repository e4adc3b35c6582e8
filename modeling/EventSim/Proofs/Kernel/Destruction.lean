import EventSim.Proofs.Kernel.Accounts

/-!
# The queue of teardown events

The teardown events of a kernel are a queue: they are registered at its end and start from its
front, and a withdrawal takes one out wherever it stands.  So a deed never changes the order in
which they wait (`Does.queue`), and `Filed` holds of a kernel and its record: **what has started,
followed by what is waiting, is in the order of registration**, and what has been registered waits,
has started, or was given up by a withdrawal or with its kernel (`Filed.does`).
-/

namespace EventSim

variable {α : Type}

/-- The teardown event that is registered. -/
def Note.registered? : Note α → Option (TeardownEvent α)
  | .issued h (.act a) => if h.kind = .teardown then some ⟨h.uid, a⟩ else none
  | _ => none

/-- The teardown event that starts. -/
def Note.unwound? : Note α → Option (TeardownEvent α)
  | .unwound e => some e
  | _ => none

/-- The teardown events that were registered, the newest first. -/
def registeredIn (r : List (Note α)) : List (TeardownEvent α) := r.filterMap Note.registered?

/-- The teardown events that have started, the newest first. -/
def unwoundIn (r : List (Note α)) : List (TeardownEvent α) := r.filterMap Note.unwound?

/-- The teardown event is given up: somebody withdraws it, or its kernel goes. -/
def Note.Dismisses (e : TeardownEvent α) : Note α → Prop
  | .withdrawn _ lost | .vanished lost => e.item ∈ lost
  | _ => False

theorem mem_registeredIn {r : List (Note α)} {e : TeardownEvent α} :
    e ∈ registeredIn r ↔
      ∃ h, .issued h (.act e.action) ∈ r ∧ h.kind = .teardown ∧ h.uid = e.uid := by
  rw [registeredIn, List.mem_filterMap]
  constructor
  · rintro ⟨n, hn, he⟩
    unfold Note.registered? at he
    split at he
    · rename_i h a
      split at he
      · rename_i hk
        cases he
        exact ⟨h, hn, hk, rfl⟩
      · cases he
    · cases he
  · rintro ⟨h, hm, hk, hu⟩
    refine ⟨_, hm, ?_⟩
    simp only [Note.registered?, hk, if_true, hu]

/-- The events that were registered are among those that were accepted. -/
theorem registeredIn_uids (r : List (Note α)) :
    ((registeredIn r).map TeardownEvent.uid).Sublist ((acceptedIn r).map Item.uid) := by
  induction r with
  | nil => exact .slnil
  | cons n r ih =>
    have hn : (n.registered?.toList.map TeardownEvent.uid).Sublist (n.accepted.map Item.uid) := by
      cases n with
      | issued h payload =>
        cases payload with
        | halt => exact List.nil_sublist _
        | act a =>
          by_cases hk : h.kind = .teardown
          · simp [Note.registered?, Note.accepted, hk]
          · simp [Note.registered?, hk]
      | _ => exact List.nil_sublist _
    have h := hn.append ih
    rw [← List.map_append, ← List.map_append] at h
    cases hr : n.registered? <;> simpa [registeredIn, acceptedIn, hr] using h

namespace Kernel

variable {k k' : Kernel α} {d : Deed α} {n : Option (Note α)} {r : List (Note α)}
  {e : TeardownEvent α}

/-! ### The queue over one deed -/

theorem teardowns_remove (k : Kernel α) (h : Handle) :
    (k.remove h).2.teardowns.Sublist k.teardowns := by
  unfold remove
  split
  · split
    · exact List.eraseP_sublist
    · dsimp only
      split <;> exact .refl _
  · exact .refl _

theorem teardowns_cancel (k : Kernel α) (h : Handle) :
    (k.cancel h).2.teardowns.Sublist k.teardowns := by
  unfold cancel
  split
  · split
    · exact List.eraseP_sublist
    · split <;> exact .refl _
  · exact .refl _

/-- **A deed takes teardown events in at the end, starts them from the front and keeps their
order.** -/
theorem Does.queue (hd : k.Does d k') :
    (unwoundIn (k.note? d).toList ++ k'.teardowns).Sublist
      (k.teardowns ++ registeredIn (k.note? d).toList) := by
  have hkeep {l : List (TeardownEvent α)} (h : k'.teardowns.Sublist k.teardowns) :
      k'.teardowns.Sublist (k.teardowns ++ l) := h.trans (List.sublist_append_left _ _)
  cases hd with
  | issued hi =>
    cases hi with
    | stored => exact hkeep (.refl _)
    | registered a => exact .refl _
  | removed h =>
    have hl := teardowns_remove k h
    rw [note?]
    split <;> exact hkeep hl
  | cancelled h =>
    have hl := teardowns_cancel k h
    rw [note?]
    split <;> exact hkeep hl
  | started hq =>
    obtain ⟨rest, -, -, -, rfl⟩ := dequeue_eq_started hq
    exact hkeep (.refl _)
  | skipped hq =>
    obtain ⟨e, rest, hp, -, -, rfl⟩ := dequeue_eq_skipped hq
    rw [note?, hp]
    exact hkeep (.refl _)
  | strayed hq =>
    obtain ⟨e, rest, hp, -, -, rfl⟩ := dequeue_eq_past hq
    rw [note?, hp]
    exact hkeep (.refl _)
  | unwound hq =>
    obtain ⟨rest, ht, rfl⟩ := popTeardown_eq_some.1 hq
    rw [ht]
    exact List.sublist_append_left _ _
  | vanished => exact List.nil_sublist _
  | _ => exact hkeep (.refl _)

/-- What is waiting waits on, starts with the deed or is given up. -/
theorem Effect.fate (he : k.Effect n k') (hm : e ∈ k.teardowns) :
    e ∈ k'.teardowns ∨ e ∈ unwoundIn n.toList ∨ ∃ x ∈ n, x.Dismisses e := by
  cases he with
  | still ha => exact .inl (ha.teardowns ▸ hm)
  | registered a => exact .inl (List.mem_append_left _ hm)
  | dismissed _ _ _ hp =>
    rcases List.mem_cons.1 (hp.mem_iff.1 hm) with rfl | hm
    · exact .inr (.inr ⟨_, rfl, List.mem_singleton_self _⟩)
    · exact .inl hm
  | unwound ht =>
    rw [ht] at hm
    rcases List.mem_cons.1 hm with rfl | hm
    · exact .inr (.inl (List.mem_singleton_self _))
    · exact .inl hm
  | vanished =>
    refine .inr (.inr ⟨_, rfl, ?_⟩)
    exact List.mem_append_right _ (List.mem_map_of_mem hm)
  | _ => exact .inl hm

/-- What a deed registers waits afterwards. -/
theorem Effect.waits (he : k.Effect n k') (hm : e ∈ registeredIn n.toList) :
    e ∈ k'.teardowns := by
  cases he with
  | stored time context payload =>
    cases payload <;> cases hm
  | registered a => exact List.mem_append_right _ hm
  | _ => cases hm

/-! ### The queue and the record -/

/-- The queue of a kernel is what its record says. -/
structure Filed (k : Kernel α) (r : List (Note α)) : Prop where
  /-- What has started, followed by what is waiting, is in the order of registration. -/
  order : ((unwoundIn r).reverse ++ k.teardowns).Sublist (registeredIn r).reverse
  /-- What was registered waits, has started or was given up. -/
  fate : ∀ e ∈ registeredIn r, e ∈ k.teardowns ∨ e ∈ unwoundIn r ∨ ∃ n ∈ r, n.Dismisses e

theorem filed_fresh (id : KernelId) (systemId : UInt32) :
    (fresh id systemId : Kernel α).Filed [] where
  order := .slnil
  fate := fun _ he => by cases he

theorem unwoundIn_append (l r : List (Note α)) :
    unwoundIn (l ++ r) = unwoundIn l ++ unwoundIn r := List.filterMap_append

theorem registeredIn_append (l r : List (Note α)) :
    registeredIn (l ++ r) = registeredIn l ++ registeredIn r := List.filterMap_append

/-- A single note is the same from both ends. -/
theorem reverse_filterMap_toList {β : Type} (f : Note α → Option β) (n : Option (Note α)) :
    (n.toList.filterMap f).reverse = n.toList.filterMap f := by
  cases n with
  | none => rfl
  | some x => cases h : f x <;> simp [h]

/-- **Every deed keeps the queue as the record says.** -/
theorem Filed.does (hd : k.Does d k') (he : k.Effect (k.note? d) k') (hf : k.Filed r) :
    k'.Filed ((k.note? d).toList ++ r) := by
  constructor
  case order =>
    have hnew := hd.queue.append_left (unwoundIn r).reverse
    have hold := hf.order.append_right (registeredIn (k.note? d).toList)
    have hunwound : (unwoundIn (k.note? d).toList).reverse = unwoundIn (k.note? d).toList :=
      reverse_filterMap_toList _ _
    have hregistered :
        (registeredIn (k.note? d).toList).reverse = registeredIn (k.note? d).toList :=
      reverse_filterMap_toList _ _
    rw [unwoundIn_append, registeredIn_append, List.reverse_append, List.reverse_append, hunwound,
      hregistered, List.append_assoc]
    rw [List.append_assoc] at hold
    exact hnew.trans hold
  case fate =>
    intro e hm
    rw [registeredIn_append] at hm
    rw [unwoundIn_append]
    rcases List.mem_append.1 hm with hm | hm
    · exact .inl (he.waits hm)
    · rcases hf.fate e hm with hm | hm | ⟨n, hn, hx⟩
      · rcases he.fate hm with hm | hm | ⟨n, hn, hx⟩
        · exact .inl hm
        · exact .inr (.inl (List.mem_append_left _ hm))
        · exact .inr (.inr ⟨n, List.mem_append_left _ (Option.mem_toList.2 hn), hx⟩)
      · exact .inr (.inl (List.mem_append_right _ hm))
      · exact .inr (.inr ⟨n, List.mem_append_right _ hn, hx⟩)

/-- A teardown event that waits was registered. -/
theorem Filed.registered (hf : k.Filed r) (hm : e ∈ k.teardowns) : e ∈ registeredIn r :=
  List.mem_reverse.1 (hf.order.subset (List.mem_append_right _ hm))

end Kernel

end EventSim
