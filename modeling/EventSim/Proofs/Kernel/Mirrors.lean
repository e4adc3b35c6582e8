import EventSim.Proofs.Kernel.Deeds
import EventSim.Proofs.Scheduler.Mirrors

/-!
# Kernels that mirror one another

Two kernels mirror one another if they agree in everything but their schedulers, and the schedulers
mirror one another.  The actions of one are images of the actions of the other.  Such kernels answer
every call alike and stay mirrors of one another, whatever backends are attached to either of them
and however the handles of the calls were come by: that the numbers of the stored events are
different and below the next number is all that is needed.

The order in which a destruction gives the stored actions up is the one thing that the schedulers
show (`Mirrors.sweep`).
-/

namespace EventSim

variable {α β : Type}

/-- The payload with its action changed. -/
def Payload.map (f : α → β) : Payload α → Payload β
  | .halt => .halt
  | .act a => .act (f a)

/-- The teardown event with its action changed. -/
def TeardownEvent.map (f : α → β) (e : TeardownEvent α) : TeardownEvent β := ⟨e.uid, f e.action⟩

@[simp] theorem Payload.action?_map (f : α → β) (p : Payload α) :
    (p.map f).action? = p.action?.map f := by
  cases p <;> rfl

namespace Kernel

variable {f : α → β} {q : α → Prop} {k k' : Kernel α} {l : Kernel β} {h : Handle}

/-- The kernel with its actions changed and another scheduler. -/
def mirror (f : α → β) (k : Kernel α) (s : Scheduler (Payload β)) : Kernel β where
  id := k.id
  systemId := k.systemId
  now := k.now
  context := k.context
  stopping := k.stopping
  scheduler := s
  teardowns := k.teardowns.map (TeardownEvent.map f)
  pending := k.pending
  cancelled := k.cancelled
  nextUid := k.nextUid
  executed := k.executed

/-- The kernel `l` is `k` with its actions, which satisfy `q`, changed by `f`, and with the same
events in another scheduler. -/
inductive Mirrors (f : α → β) (q : α → Prop) : Kernel α → Kernel β → Prop
  | mk {k : Kernel α} {s : Scheduler (Payload β)} :
      k.scheduler.Mirrors (Payload.map f) s →
      (∀ e ∈ k.scheduler.toList, e.key.uid < k.nextUid) →
      (∀ a, .act a ∈ k.load → q a) →
      Mirrors f q k (k.mirror f s)

theorem mirrors_fresh (id : KernelId) (systemId : UInt32) :
    Mirrors f q (fresh id systemId) (fresh id systemId) := by
  have hs : Scheduler.Mirrors (Payload.map f) (.empty .map) (.empty .map) := .empty rfl rfl
  exact .mk (k := fresh id systemId) hs (fun _ he => by cases he) fun _ ha => by cases ha

/-- A kernel that holds nothing but what the kernel `o` held is mirrored if its scheduler is. -/
theorem mirrors_of_subset {o k : Kernel α} {s : Scheduler (Payload β)}
    (hu : ∀ e ∈ o.scheduler.toList, e.key.uid < o.nextUid)
    (hq : ∀ a, Payload.act a ∈ o.load → q a)
    (hs : k.scheduler.Mirrors (Payload.map f) s) (hsub : k.scheduler.toList ⊆ o.scheduler.toList)
    (ht : k.teardowns ⊆ o.teardowns) (hn : k.nextUid = o.nextUid) :
    Mirrors f q k (k.mirror f s) := by
  refine .mk hs (fun e he => hn ▸ hu e (hsub he)) fun a ha => hq a ?_
  rcases List.mem_append.1 ha with ha | ha
  · exact List.mem_append_left _ (List.map_subset _ hsub ha)
  · exact List.mem_append_right _ (List.map_subset _ ht ha)

/-! ### Scheduling -/

/-- Both calls are refused for the same reason, or both are accepted and answer the same handle. -/
inductive Alike (f : α → β) (q : α → Prop) :
    Except SimError (Handle × Kernel α) → Except SimError (Handle × Kernel β) → Prop
  | refused (error : SimError) : Alike f q (.error error) (.error error)
  | accepted {k : Kernel α} {l : Kernel β} (h : Handle) :
      Mirrors f q k l → Alike f q (.ok (h, k)) (.ok (h, l))

theorem Mirrors.store (m : Mirrors f q k l) {time : Time} (ht : k.now ≤ time) (context : Context)
    {p : Payload α} (hp : ∀ a, p = .act a → q a) :
    Alike f q (.ok (k.store time context p)) (.ok (l.store time context (p.map f))) := by
  obtain ⟨hs, hu, hq⟩ := m
  have hfresh : ∀ x ∈ k.scheduler.toList, ¬ (⟨time, k.nextUid, context⟩ : EventKey).Same x.key := by
    intro x hx hsame
    have hlt := hu x hx
    rw [← hsame.2] at hlt
    exact Nat.lt_irrefl _ hlt
  refine .accepted _ (.mk (hs.insert hfresh) (fun e he => ?_) ?_)
  · rcases List.mem_cons.1 ((Scheduler.perm_insert hfresh).mem_iff.1 he) with rfl | he
    · exact Nat.lt_succ_self _
    · exact Nat.lt_succ_of_lt (hu e he)
  · refine Does.holds (.issued (.stored k time context p ht)) (fun a ha => ?_) hq
    exact hp a (List.mem_singleton.1 ha).symm

theorem Mirrors.insert (m : Mirrors f q k l) (context : Context) (delay : Time) {p : Payload α}
    (hp : ∀ a, p = .act a → q a) :
    Alike f q (k.insert context delay p) (l.insert context delay (p.map f)) := by
  have hnow : l.now = k.now := by
    cases m
    rfl
  unfold Kernel.insert
  rw [hnow]
  split
  · exact .refused _
  · rename_i hn
    split
    · exact .refused _
    · rename_i time ht
      exact m.store (le_of_checkedAdd hn ht) context hp

theorem Mirrors.register (m : Mirrors f q k l) {a : α} (ha : q a) :
    Alike f q (.ok (k.register a)) (.ok (l.register (f a))) := by
  obtain ⟨hs, hu, hq⟩ := m
  rename_i s
  have hl : (k.mirror f s).register (f a) = ((k.register a).1, (k.register a).2.mirror f s) := by
    simp [Kernel.register, mirror, TeardownEvent.map]
  rw [hl]
  refine .accepted _ (.mk hs (fun e he => Nat.lt_succ_of_lt (hu e he)) ?_)
  refine Does.holds (.issued (.registered k a)) (fun b hb => ?_) hq
  cases List.mem_singleton.1 hb
  exact ha

/-- **Actions are accepted alike.** -/
theorem Mirrors.schedule (m : Mirrors f q k l) (timing : Timing) {a : α} (ha : q a) :
    Alike f q (k.schedule timing a) (l.schedule timing (f a)) := by
  have hact : ∀ b, Payload.act a = .act b → q b := fun b hb => by
    cases hb
    exact ha
  have hnow : l.now = k.now := by
    cases m
    rfl
  have hcontext : l.context = k.context := by
    cases m
    rfl
  cases timing with
  | after delay =>
    rw [Kernel.schedule, Kernel.schedule, hcontext]
    exact m.insert k.context delay hact
  | immediately =>
    rw [Kernel.schedule, Kernel.schedule, hnow, hcontext]
    exact m.store (Time.le_refl _) k.context hact
  | under context delay => exact m.insert context delay hact
  | atTeardown => exact m.register ha

theorem Mirrors.stopAfter (m : Mirrors f q k l) (delay : Time) :
    Alike f q (k.stopAfter delay) (l.stopAfter delay) := by
  have hcontext : l.context = k.context := by
    cases m
    rfl
  rw [Kernel.stopAfter, Kernel.stopAfter, hcontext]
  exact m.insert k.context delay (p := .halt) fun a ha => by cases ha

/-! ### Handles -/

theorem Mirrors.takeTeardown (m : Mirrors f q k l) (uid : Nat) :
    (l.takeTeardown uid).1 = (k.takeTeardown uid).1.map f ∧
      Mirrors f q (k.takeTeardown uid).2 (l.takeTeardown uid).2 := by
  obtain ⟨hs, hu, hq⟩ := m
  rename_i s
  have hfind : (k.teardowns.map (TeardownEvent.map f)).find? (fun e => e.uid == uid) =
      (k.teardowns.find? fun e => e.uid == uid).map (TeardownEvent.map f) := List.find?_map ..
  have herase : (k.teardowns.map (TeardownEvent.map f)).eraseP (fun e => e.uid == uid) =
      (k.teardowns.eraseP fun e => e.uid == uid).map (TeardownEvent.map f) := List.eraseP_map ..
  constructor
  · show ((k.teardowns.map (TeardownEvent.map f)).find? _).map _ = Option.map f (Option.map _ _)
    rw [hfind, Option.map_map, Option.map_map]
    rfl
  · have hl : ((k.mirror f s).takeTeardown uid).2 = (k.takeTeardown uid).2.mirror f s := by
      simp only [Kernel.takeTeardown, mirror, herase]
    rw [hl]
    exact mirrors_of_subset hu hq hs (List.Subset.refl _) List.eraseP_subset rfl

theorem Mirrors.issued (m : Mirrors f q k l) : l.Issued h ↔ k.Issued h := by
  cases m
  rfl

/-- **The same event is removed, and its action given up.** -/
theorem Mirrors.remove (m : Mirrors f q k l) (h : Handle) :
    (l.remove h).1 = (k.remove h).1.map f ∧ Mirrors f q (k.remove h).2 (l.remove h).2 := by
  unfold Kernel.remove
  by_cases hi : k.Issued h
  · rw [if_pos hi, if_pos (m.issued.2 hi)]
    split
    · exact m.takeTeardown h.uid
    · obtain ⟨hs, hu, hq⟩ := m
      rename_i s
      dsimp only [mirror]
      by_cases hu' : h.uid ∈ k.pending ∨ h.uid ∈ k.cancelled
      · simp only [hu', if_true]
        obtain ⟨hr, hm⟩ := hs.remove h.key
        have hsub : (k.scheduler.remove h.key).2.toList ⊆ k.scheduler.toList := fun e he =>
          (Scheduler.perm_remove k.scheduler h.key).mem_iff.2 (List.mem_append_right _ he)
        refine ⟨?_, mirrors_of_subset hu hq hm hsub (List.Subset.refl _) rfl⟩
        rw [hr]
        cases (k.scheduler.remove h.key).1 with
        | none => rfl
        | some e => exact Payload.action?_map f e.payload
      · simp only [hu', if_false]
        exact ⟨rfl, mirrors_of_subset hu hq hs (List.Subset.refl _) (List.Subset.refl _) rfl⟩
  · rw [if_neg hi, if_neg fun hl => hi (m.issued.1 hl)]
    exact ⟨rfl, m⟩

/-- **The same event is cancelled.** -/
theorem Mirrors.cancel (m : Mirrors f q k l) (h : Handle) :
    (l.cancel h).1 = (k.cancel h).1.map f ∧ Mirrors f q (k.cancel h).2 (l.cancel h).2 := by
  unfold Kernel.cancel
  by_cases hi : k.Issued h
  · rw [if_pos hi, if_pos (m.issued.2 hi)]
    split
    · exact m.takeTeardown h.uid
    · obtain ⟨hs, hu, hq⟩ := m
      rename_i s
      dsimp only [mirror]
      by_cases hu' : h.uid ∈ k.pending
      · simp only [hu', if_true]
        exact ⟨rfl, mirrors_of_subset hu hq hs (List.Subset.refl _) (List.Subset.refl _) rfl⟩
      · simp only [hu', if_false]
        exact ⟨rfl, .mk hs hu hq⟩
  · rw [if_neg hi, if_neg fun hl => hi (m.issued.1 hl)]
    exact ⟨rfl, m⟩

theorem Mirrors.isExpired (m : Mirrors f q k l) (h : Handle) : l.isExpired h = k.isExpired h := by
  unfold Kernel.isExpired
  by_cases hi : k.Issued h
  · rw [if_pos hi, if_pos (m.issued.2 hi)]
    obtain ⟨hs, hu, hq⟩ := m
    split
    · dsimp only [mirror]
      rw [List.any_map]
      rfl
    · rfl
  · rw [if_neg hi, if_neg fun hl => hi (m.issued.1 hl)]

theorem Mirrors.delayLeft (m : Mirrors f q k l) (h : Handle) : l.delayLeft h = k.delayLeft h := by
  unfold Kernel.delayLeft
  rw [m.isExpired]
  cases m
  rfl

/-! ### Backends -/

/-- **Another backend can be attached at any time.** -/
theorem Mirrors.attach (m : Mirrors f q k l) {b : Backend} (hb : b.isBuiltIn = true) :
    Mirrors f q (k.attach b) l := by
  obtain ⟨hs, hu, hq⟩ := m
  have hsub : (k.attach b).scheduler.toList ⊆ k.scheduler.toList :=
    (Scheduler.perm_migrate hs.distinct b).subset
  exact mirrors_of_subset (k := k.attach b) hu hq (hs.migrate hb) hsub (List.Subset.refl _) rfl

/-! ### The run loop -/

theorem Mirrors.stop (m : Mirrors f q k l) : Mirrors f q k.stop l.stop := by
  obtain ⟨hs, hu, hq⟩ := m
  exact mirrors_of_subset (k := k.stop) hu hq hs (List.Subset.refl _) (List.Subset.refl _) rfl

theorem Mirrors.beginRun (m : Mirrors f q k l) : Mirrors f q k.beginRun l.beginRun := by
  obtain ⟨hs, hu, hq⟩ := m
  exact mirrors_of_subset (k := k.beginRun) hu hq hs (List.Subset.refl _) (List.Subset.refl _) rfl

theorem Mirrors.endRun (m : Mirrors f q k l) : Mirrors f q k.endRun l.endRun := by
  obtain ⟨hs, hu, hq⟩ := m
  exact mirrors_of_subset (k := k.endRun) hu hq hs (List.Subset.refl _) (List.Subset.refl _) rfl

/-- The run loops have the same thing to do next. -/
inductive Dequeues (f : α → β) (q : α → Prop) : Dequeued α → Dequeued β → Prop
  | idle : Dequeues f q .idle .idle
  | skipped {k : Kernel α} {l : Kernel β} (p : Payload α) :
      Mirrors f q k l → Dequeues f q (.skipped p k) (.skipped (p.map f) l)
  | past {k : Kernel α} {l : Kernel β} (p : Payload α) :
      Mirrors f q k l → Dequeues f q (.past p k) (.past (p.map f) l)
  | started {k : Kernel α} {l : Kernel β} {e : Event (Payload α)} :
      (∀ a, e.payload = .act a → q a) → Mirrors f q k l →
      Dequeues f q (.started e k) (.started (e.map (Payload.map f)) l)

/-- **The same event runs next.** -/
theorem Mirrors.dequeue (m : Mirrors f q k l) : Dequeues f q k.dequeue l.dequeue := by
  obtain ⟨hs, hu, hq⟩ := m
  rename_i s
  unfold Kernel.dequeue
  dsimp only [mirror]
  by_cases hstop : k.stopping = true
  · simp only [hstop, if_true]
    exact .idle
  · cases hp : k.scheduler.pop with
    | none =>
      simp only [hstop, hs.pop_none hp]
      exact .idle
    | some r =>
      obtain ⟨e, rest⟩ := r
      obtain ⟨s', hp', hm⟩ := hs.pop hp
      have hperm := Scheduler.perm_pop hp
      have hsub : rest.toList ⊆ k.scheduler.toList := fun x hx =>
        hperm.mem_iff.2 (List.mem_cons_of_mem _ hx)
      have hact : ∀ a, e.payload = .act a → q a := fun a ha =>
        hq a (List.mem_append_left _ (List.mem_map.2 ⟨e, hperm.mem_iff.2 List.mem_cons_self, ha⟩))
      simp only [hstop, hp', Event.map]
      by_cases hc : e.key.uid ∈ k.cancelled
      · simp only [hc, if_true]
        exact .skipped _ (mirrors_of_subset hu hq hm hsub (List.Subset.refl _) rfl)
      · by_cases hlt : e.key.time < k.now
        · simp only [hc, hlt, if_true, if_false]
          exact .past _ (mirrors_of_subset hu hq hm hsub (List.Subset.refl _) rfl)
        · simp only [hc, hlt, if_false]
          exact .started hact (mirrors_of_subset hu hq hm hsub (List.Subset.refl _) rfl)

/-! ### Destruction -/

theorem Mirrors.popTeardown_none (m : Mirrors f q k l) (h : k.popTeardown = none) :
    l.popTeardown = none := by
  obtain ⟨hs, hu, hq⟩ := m
  rw [popTeardown_eq_none] at *
  dsimp only [mirror]
  rw [h]
  rfl

/-- The same teardown event is next. -/
theorem Mirrors.popTeardown (m : Mirrors f q k l) {e : TeardownEvent α}
    (h : k.popTeardown = some (e, k')) :
    q e.action ∧ ∃ l', l.popTeardown = some (e.map f, l') ∧ Mirrors f q k' l' := by
  obtain ⟨hs, hu, hq⟩ := m
  rename_i s
  obtain ⟨rest, ht, rfl⟩ := popTeardown_eq_some.1 h
  have hmem : e ∈ k.teardowns := by simp [ht]
  refine ⟨hq _ (List.mem_append_right _ (List.mem_map.2 ⟨e, hmem, rfl⟩)), _,
    popTeardown_eq_some.2 ⟨rest.map (TeardownEvent.map f), ?_, rfl⟩, ?_⟩
  · dsimp only [mirror]
    rw [ht, List.map_cons]
  · refine mirrors_of_subset (k := { k with teardowns := rest }) hu hq hs (List.Subset.refl _) ?_
      rfl
    rw [ht]
    exact List.subset_cons_self e rest

/-- **The same actions are given up**, in an order that the schedulers choose. -/
theorem Mirrors.sweep (m : Mirrors f q k l) :
    l.sweep.1.Perm (k.sweep.1.map f) ∧ Mirrors f q k.sweep.2 l.sweep.2 := by
  obtain ⟨hs, hu, hq⟩ := m
  rename_i s
  constructor
  · have h := hs.perm.filterMap fun e : Event (Payload β) => e.payload.action?
    rw [List.filterMap_map] at h
    refine h.trans (List.Perm.of_eq ?_)
    dsimp only [Kernel.sweep]
    rw [List.map_filterMap]
    exact List.filterMap_congr fun e _ => Payload.action?_map f e.payload
  · have he : Scheduler.Mirrors (Payload.map f) (.empty .map) (.empty .map) := .empty rfl rfl
    exact mirrors_of_subset (k := k.sweep.2) hu hq he (List.nil_subset _) (List.Subset.refl _) rfl

end Kernel

end EventSim
