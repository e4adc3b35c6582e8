import EventSim.Proofs.Kernel.Consistent

/-!
# The record of a kernel

What a kernel has been through is told by a list of notes: an event was issued, withdrawn, started,
skipped, a destruction came to its end, and so on.  `Kernel.note?` says what is noted of a deed;
deeds that leave the books alone are not noted.  A kernel `Undergoes` a record if deeds lead from
the one state to the other and their notes make up the record.

`Sound.effect` says once for all theorems about records **what a deed can do to a sound kernel, and
what is noted of it**.  An assertion on kernels and records that every such effect keeps holds of
all that a kernel can become, by `Undergoes.keeps`.
-/

namespace EventSim

/-- An event as it stands in the books: its number and what it does. -/
structure Item (α : Type) where
  uid : Nat
  payload : Payload α

/-- A timed event without its key. -/
def Event.item {α : Type} (e : Event (Payload α)) : Item α := ⟨e.key.uid, e.payload⟩

/-- A teardown event as it stands in the books. -/
def TeardownEvent.item {α : Type} (e : TeardownEvent α) : Item α := ⟨e.uid, .act e.action⟩

/-- What is noted of a deed. -/
inductive Note (α : Type) where
  /-- A scheduling call was accepted and has answered this handle. -/
  | issued (h : Handle) (payload : Payload α)
  /-- Somebody withdrew the event of the handle, and this was given up at once. -/
  | withdrawn (h : Handle) (lost : List (Item α))
  /-- A timed event starts. -/
  | started (e : Event (Payload α))
  /-- An event came out that was cancelled. -/
  | skipped (e : Event (Payload α))
  /-- A teardown event starts. -/
  | unwound (e : TeardownEvent α)
  /-- A destruction came to its end and gave this up. -/
  | swept (lost : List (Item α))
  /-- The kernel went and gave this up. -/
  | vanished (lost : List (Item α))
  /-- A run loop came to its end. -/
  | ended

/-- The timed event that starts. -/
def Note.started? {α : Type} : Note α → Option (Event (Payload α))
  | .started e => some e
  | _ => none

/-- The timed events that have started, the newest first. -/
def startedIn {α : Type} (r : List (Note α)) : List (Event (Payload α)) :=
  r.filterMap Note.started?

namespace Kernel

variable {α : Type} {k k' k'' : Kernel α} {d : Deed α} {h : Handle}

/-- What stands in the books as stored. -/
def storedItems (k : Kernel α) : List (Item α) := k.scheduler.toList.map Event.item

/-- What stands in the books as registered for the destruction. -/
def teardownItems (k : Kernel α) : List (Item α) := k.teardowns.map TeardownEvent.item

/-- All that stands in the books. -/
def items (k : Kernel α) : List (Item α) := k.storedItems ++ k.teardownItems

/-- The teardown event of number `uid`. -/
def teardownOf (k : Kernel α) (uid : Nat) : Option (TeardownEvent α) :=
  k.teardowns.find? fun e => e.uid == uid

/-- What is given up at once when the event of `h` is removed. -/
def removal (k : Kernel α) (h : Handle) : Option (Item α) :=
  match h.kind with
  | .teardown => (k.teardownOf h.uid).map TeardownEvent.item
  | .timed =>
    if h.uid ∈ k.pending ∨ h.uid ∈ k.cancelled then (k.scheduler.remove h.key).1.map Event.item
    else none

/-- What is given up at once when the event of `h` is cancelled. -/
def cancellation (k : Kernel α) (h : Handle) : Option (Item α) :=
  match h.kind with
  | .teardown => (k.teardownOf h.uid).map TeardownEvent.item
  | .timed => none

/-- What is noted of a deed. -/
def note? (k : Kernel α) : Deed α → Option (Note α)
  | .stored key payload => some (.issued (.ofKey (some k.id) key) payload)
  | .registered e => some (.issued (.ofTeardown (some k.id) k.now e.uid) (.act e.action))
  | .removed h => if k.Issued h then some (.withdrawn h (k.removal h).toList) else none
  | .cancelled h => if k.Issued h then some (.withdrawn h (k.cancellation h).toList) else none
  | .started e => some (.started e)
  | .skipped _ | .strayed _ => k.scheduler.pop.map fun r => .skipped r.1
  | .unwound e => some (.unwound e)
  | .swept => some (.swept k.storedItems)
  | .vanished => some (.vanished k.items)
  | .ended => some .ended
  | .attached _ | .stopped | .began => none

/-- The kernel becomes another one by deeds of which the record tells, the oldest first. -/
inductive Undergoes : Kernel α → List (Note α) → Kernel α → Prop
  | refl (k : Kernel α) : Undergoes k [] k
  | does {k k' k'' : Kernel α} {d : Deed α} {l : List (Note α)} :
      k.Does d k' → k.Admits d → Undergoes k' l k'' → Undergoes k ((k.note? d).toList ++ l) k''

theorem Undergoes.single (hd : k.Does d k') (ha : k.Admits d) :
    k.Undergoes (k.note? d).toList k' := by
  have h := Undergoes.does hd ha (.refl k')
  rwa [List.append_nil] at h

theorem Undergoes.trans {l l' : List (Note α)} (h : k.Undergoes l k') (g : k'.Undergoes l' k'') :
    k.Undergoes (l ++ l') k'' := by
  induction h with
  | refl => exact g
  | does hd ha _ ih =>
    rw [List.append_assoc]
    exact .does hd ha (ih g)

/-! ### What a deed can do -/

/-- The books are the same, the order of the stored events apart. -/
structure Akin (k k' : Kernel α) : Prop where
  id : k'.id = k.id
  now : k'.now = k.now
  context : k'.context = k.context
  stored : k'.scheduler.toList.Perm k.scheduler.toList
  teardowns : k'.teardowns = k.teardowns
  pending : k'.pending = k.pending
  cancelled : k'.cancelled = k.cancelled
  nextUid : k'.nextUid = k.nextUid
  executed : k'.executed = k.executed

theorem Akin.refl (k : Kernel α) : k.Akin k :=
  ⟨rfl, rfl, rfl, .refl _, rfl, rfl, rfl, rfl, rfl⟩

/-- What a deed can do to a kernel, and what is noted of it. -/
inductive Effect : Kernel α → Option (Note α) → Kernel α → Prop
  | still {k k' : Kernel α} : k.Akin k' → Effect k none k'
  | ended (k : Kernel α) : Effect k (some .ended) k.endRun
  | stored {k : Kernel α} (time : Time) (context : Context) (payload : Payload α) :
      k.now ≤ time →
      Effect k (some (.issued (k.store time context payload).1 payload))
        (k.store time context payload).2
  | registered (k : Kernel α) (a : α) :
      Effect k (some (.issued (k.register a).1 (.act a))) (k.register a).2
  /-- The event had gone before. -/
  | unmoved {k : Kernel α} {h : Handle} : k.Issued h → k.isExpired h = true →
      Effect k (some (.withdrawn h [])) k
  /-- The event is stored and stays so, but will be skipped. -/
  | marked {k : Kernel α} {h : Handle} : k.Issued h → h.kind = .timed → h.uid ∈ k.pending →
      Effect k (some (.withdrawn h []))
        { k with pending := k.pending.erase h.uid, cancelled := h.uid :: k.cancelled }
  /-- The event was stored and goes. -/
  | dropped {k : Kernel α} {h : Handle} {e : Event (Payload α)} {rest : Scheduler (Payload α)} :
      k.Issued h → h.kind = .timed → e.key.uid = h.uid →
      k.scheduler.toList.Perm (e :: rest.toList) →
      Effect k (some (.withdrawn h [e.item]))
        { k with
          pending := k.pending.erase e.key.uid
          cancelled := k.cancelled.erase e.key.uid
          scheduler := rest }
  /-- The teardown event was registered and goes. -/
  | dismissed {k : Kernel α} {h : Handle} {e : TeardownEvent α} {l : List (TeardownEvent α)} :
      k.Issued h → h.kind = .teardown → e.uid = h.uid → k.teardowns.Perm (e :: l) →
      Effect k (some (.withdrawn h [e.item])) { k with teardowns := l }
  | started {k : Kernel α} {e : Event (Payload α)} {rest : Scheduler (Payload α)} :
      k.scheduler.toList.Perm (e :: rest.toList) →
      (∀ x ∈ rest.toList, e.key.Before x.key) → e.key.uid ∈ k.pending → k.now ≤ e.key.time →
      Effect k (some (.started e))
        { k with
          scheduler := rest
          pending := k.pending.erase e.key.uid
          executed := k.executed + 1
          now := e.key.time
          context := e.key.context }
  | skipped {k : Kernel α} {e : Event (Payload α)} {rest : Scheduler (Payload α)} :
      k.scheduler.toList.Perm (e :: rest.toList) → e.key.uid ∈ k.cancelled →
      Effect k (some (.skipped e))
        { k with scheduler := rest, cancelled := k.cancelled.erase e.key.uid }
  | unwound {k : Kernel α} {e : TeardownEvent α} {l : List (TeardownEvent α)} :
      k.teardowns = e :: l → Effect k (some (.unwound e)) { k with teardowns := l }
  | swept {k : Kernel α} : k.teardowns = [] →
      Effect k (some (.swept k.storedItems)) k.sweep.2
  | vanished (k : Kernel α) : Effect k (some (.vanished k.items)) k.emptied

/-! ### Withdrawals -/

theorem takeTeardown_of_none {uid : Nat} (h : k.teardownOf uid = none) :
    (k.takeTeardown uid).2 = k := by
  have : k.teardowns.eraseP (fun e => e.uid == uid) = k.teardowns :=
    List.eraseP_of_forall_not (List.find?_eq_none.1 h)
  simp only [takeTeardown, this]

theorem perm_takeTeardown {uid : Nat} {e : TeardownEvent α} (h : k.teardownOf uid = some e) :
    k.teardowns.Perm (e :: (k.takeTeardown uid).2.teardowns) := perm_of_find? h

theorem teardownOf_eq_none {uid : Nat} : k.teardownOf uid = none ↔ uid ∉ k.teardownUids := by
  simp only [teardownOf, List.find?_eq_none, teardownUids, List.mem_map, not_exists, not_and,
    beq_iff_eq]

theorem isExpired_timed (hi : k.Issued h) (ht : h.kind = .timed) :
    k.isExpired h = true ↔ h.uid ∉ k.pending := by
  simp [isExpired, hi, ht]

theorem isExpired_teardown (hi : k.Issued h) (ht : h.kind = .teardown) :
    k.isExpired h = true ↔ h.uid ∉ k.teardownUids := by
  simp [isExpired, hi, ht, teardownUids]

/-- A teardown event that is withdrawn is registered and goes, or it had gone before. -/
theorem effect_takeTeardown (hi : k.Issued h) (ht : h.kind = .teardown) :
    k.Effect (some (.withdrawn h ((k.teardownOf h.uid).map TeardownEvent.item).toList))
      (k.takeTeardown h.uid).2 := by
  cases hf : k.teardownOf h.uid with
  | none =>
    rw [takeTeardown_of_none hf]
    exact .unmoved hi ((isExpired_teardown hi ht).2 (teardownOf_eq_none.1 hf))
  | some e =>
    have hu : e.uid = h.uid := by simpa using List.find?_some hf
    exact .dismissed hi ht hu (perm_takeTeardown hf)

theorem Sound.effect_remove (s : k.Sound) (hk : k.Issued h → k.Knows h) :
    k.Effect (k.note? (.removed h)) (k.remove h).2 := by
  by_cases hi : k.Issued h
  · rw [note?, if_pos hi, Kernel.remove, if_pos hi]
    cases ht : h.kind with
    | teardown =>
      simp only [removal, ht]
      exact effect_takeTeardown hi ht
    | timed =>
      simp only [removal, ht]
      by_cases hu : h.uid ∈ k.pending ∨ h.uid ∈ k.cancelled
      · obtain ⟨e, rest, hr, he, hp⟩ := s.exists_remove (hk hi) ht hu
        rw [if_pos hu, if_pos hu, hr, ← he]
        exact .dropped hi ht he hp
      · rw [if_neg hu, if_neg hu]
        rw [not_or] at hu
        rw [List.erase_of_not_mem hu.1, List.erase_of_not_mem hu.2]
        exact .unmoved hi ((isExpired_timed hi ht).2 hu.1)
  · rw [note?, if_neg hi, Kernel.remove, if_neg hi]
    exact .still (.refl k)

theorem Sound.effect_cancel (s : k.Sound) :
    k.Effect (k.note? (.cancelled h)) (k.cancel h).2 := by
  by_cases hi : k.Issued h
  · rw [note?, if_pos hi, Kernel.cancel, if_pos hi]
    cases ht : h.kind with
    | teardown =>
      simp only [cancellation, ht]
      exact effect_takeTeardown hi ht
    | timed =>
      simp only [cancellation, ht]
      split
      · rename_i hu
        rw [List.insert_of_not_mem (s.not_cancelled hu)]
        exact .marked hi ht hu
      · rename_i hu
        exact .unmoved hi ((isExpired_timed hi ht).2 hu)
  · rw [note?, if_neg hi, Kernel.cancel, if_neg hi]
    exact .still (.refl k)

/-! ### All deeds -/

/-- The event that is handed out comes before all others. -/
theorem Sound.pop_before {e : Event (Payload α)} {rest : Scheduler (Payload α)} (s : k.Sound)
    (hp : k.scheduler.pop = some (e, rest)) : ∀ x ∈ rest.toList, e.key.Before x.key := by
  intro x hx
  have hperm := Scheduler.perm_pop hp
  have hd := List.pairwise_cons.1
    ((hperm.pairwise_iff fun hxy hyx => hxy hyx.symm).1 s.distinct_keys)
  refine EventKey.before_of_not_before_of_not_same ?_ (hd.1 x hx)
  exact s.ordered.pop_first hp x (hperm.mem_iff.2 (List.mem_cons_of_mem _ hx))

/-- **What a deed does to a sound kernel, and what is noted of it.** -/
theorem Sound.effect (s : k.Sound) (hd : k.Does d k') (ha : k.Admits d) :
    k.Effect (k.note? d) k' := by
  cases hd with
  | issued hi =>
    cases hi with
    | stored time context payload ht => exact .stored time context payload ht
    | registered a => exact .registered k a
  | removed h => exact s.effect_remove ha
  | cancelled h => exact s.effect_cancel
  | attached b =>
    refine .still { Akin.refl k with stored := ?_ }
    exact Scheduler.perm_migrate s.distinct_keys b
  | stopped => exact .still { Akin.refl k with }
  | began => exact .still { Akin.refl k with }
  | ended => exact .ended k
  | started hq =>
    obtain ⟨rest, hp, hc, hle, rfl⟩ := dequeue_eq_started hq
    have hperm := Scheduler.perm_pop hp
    refine .started hperm (s.pop_before hp) ?_ hle
    have hu := s.mem_sets.1 (mem_storedUids (hperm.mem_iff.2 List.mem_cons_self))
    exact hu.resolve_right hc
  | skipped hq =>
    obtain ⟨e, rest, hp, rfl, hc, rfl⟩ := dequeue_eq_skipped hq
    rw [note?, hp]
    exact .skipped (Scheduler.perm_pop hp) hc
  | strayed hq => exact absurd hq s.not_past
  | unwound hq =>
    obtain ⟨l, ht, rfl⟩ := popTeardown_eq_some.1 hq
    exact .unwound ht
  | swept ht => exact .swept ht
  | vanished => exact .vanished k

/-- **What every effect keeps holds of all that a kernel becomes.**  The record `r` of the past has
the newest note first. -/
theorem Undergoes.keeps {I : Kernel α → List (Note α) → Prop} {l r : List (Note α)}
    (h : k.Undergoes l k') (s : k.Sound)
    (hstep : ∀ {k k' : Kernel α} {d : Deed α} {r : List (Note α)},
      k.Sound → k.Does d k' → k.Effect (k.note? d) k' → I k r → I k' ((k.note? d).toList ++ r))
    (hI : I k r) : I k' (l.reverse ++ r) := by
  induction h generalizing r with
  | refl => exact hI
  | @does k k' k'' d l hd ha _ ih =>
    have h := ih (s.does hd ha) (hstep s hd (s.effect hd ha) hI)
    rw [← List.append_assoc] at h
    rw [List.reverse_append]
    cases hn : k.note? d <;> simpa [hn] using h

end Kernel

end EventSim
