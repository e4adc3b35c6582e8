import EventSim.Proofs.Facade.Trail
import EventSim.Proofs.World.Registered

/-!
# What a teardown takes out of the slot

A teardown destroys the kernel that it finds in the slot and then clears the slot.  If a teardown
event has emptied the slot by a teardown of its own and the facade has built another kernel, that
kernel is taken out without having been destroyed, and unless the program has a name for it, its
teardown events are dropped.

`Trail.teardown_iff` says that nothing else goes wrong, for all programs that leave the destruction
of kernels to teardowns: **the kernel that is taken out was destroyed since it came into the slot
exactly if it is the one that the teardown has found**, and **a teardown event is dropped exactly if
its kernel has no name and is taken out by a teardown that has found another one**.
-/

namespace EventSim

/-- The command destroys no kernel, save by a teardown. -/
def Command.LeavesKernels (c : Command) : Prop := ∀ t, c ≠ .destroy t

/-- With the move from `m` to `n` the destruction of a kernel comes to its end: no teardown event is
left, or the kernel is one that has none. -/
def Destroys (id : KernelId) (m n : Machine) : Prop :=
  (∃ rest, m.stack = .destroying id :: rest ∧ ∀ e, ¬ m.world.Registered id e) ∨
    ¬ m.world.HasKernel id ∧ ∃ rest, n.stack = .clearing id :: rest ∧ m.stack.length ≤ rest.length

/-- Since the kernel has come into the slot, its destruction has come to an end. -/
def DestroyedSince (id : KernelId) : List Machine → Prop
  | n :: m :: older =>
    n.world.slot = some id ∧ (Destroys id m n ∨ DestroyedSince id (m :: older))
  | _ => False

/-- The next step is the end of a teardown that has found the kernel `found`, and takes the kernel
`id` out of the slot. -/
def Machine.TakesOut (m : Machine) (found id : KernelId) : Prop :=
  (∃ rest, m.stack = .clearing found :: rest) ∧ m.world.slot = some id

/-- With the move from `m` to `n` the first teardown event of a kernel starts. -/
def Launches (id : KernelId) (e : TeardownEvent Action) (m n : Machine) : Prop :=
  (∃ rest, m.stack = .destroying id :: rest) ∧
    (∃ watched k later, m.world.engine? id = some (.builtIn watched k) ∧
      k.teardowns = e :: later) ∧
    (n.stack = .body e.action.reporting e.action.body :: m.stack ∨
      ∃ p, n.result = some (.error p))

/-- With the move from `m` to `n` a program withdraws a teardown event through its handle. -/
def Withdraws (id : KernelId) (e : TeardownEvent Action) (m n : Machine) : Prop :=
  ∃ c, (m.Starts c ∨ m.stack = [] ∧ n = .ofCall m.world c) ∧
    ∃ t name, (c = .cancel t name ∨ c = .remove t name) ∧
      (m.world.handle name).owner = some id ∧ (m.world.handle name).kind = .teardown ∧
      (m.world.handle name).uid = e.uid

/-- With the move from `m` to `n` a teardown event goes that was neither run nor withdrawn. -/
def Drops (id : KernelId) (e : TeardownEvent Action) (m n : Machine) : Prop :=
  m.world.Registered id e ∧ ¬ n.world.Registered id e ∧ ¬ Launches id e m n ∧
    ¬ Withdraws id e m n

/-- The frame may stand on the others: the destruction of a kernel stands on the end of the teardown
that has found it, and nothing else stands on the end of a teardown. -/
def Fits : Mark → List Mark → Prop
  | .destroying id, s => ∃ rest, s = .clearing id :: rest
  | _, s => Open s

/-- Every frame stands on others that it fits. -/
def Stacked : List Mark → Prop
  | [] => True
  | mark :: rest => Fits mark rest ∧ Stacked rest

variable {p starts : Command → Prop} {w w' : World} {m n : Machine} {older t : List Machine}
  {s s' : List Mark} {id found : KernelId} {e : TeardownEvent Action}

theorem Command.Staged.leavesKernels {c : Command} (h : c.Staged) : c.LeavesKernels := by
  rintro t rfl
  exact h

/-! ### The shape of the stack -/

theorem Stacked.shifts (h : Stacked s) (hs : Shifts Command.LeavesKernels s s') : Stacked s' := by
  cases hs with
  | panicked => trivial
  | same => exact h
  | pushed ho => exact ⟨ho, h⟩
  | popped => exact h.2
  | destroys id hd => exact (hd _ rfl).elim
  | destroyed => exact h.2

theorem Stacked.turns (h : Stacked s) (ht : Turns Command.LeavesKernels w s n) :
    Stacked (marks n.stack) := by
  cases ht with
  | shifted _ hs => exact h.shifts hs
  | @torn id below _ _ _ _ ho hbelow hmarks =>
    have hopen : Open below := by
      rcases hbelow with rfl | rfl
      · exact ho
      · exact open_plain s
    have hstacked : Stacked below := by
      rcases hbelow with rfl | rfl
      · exact h
      · exact ⟨ho, h⟩
    rcases hmarks with ⟨hmarks, -⟩ | hmarks
    · rw [hmarks]
      exact ⟨hopen, hstacked⟩
    · rw [hmarks]
      exact ⟨⟨below, rfl⟩, hopen, hstacked⟩
  | cleared found hs =>
    rw [hs] at h
    exact h.2

/-- Below the destruction of a kernel is the end of the teardown that has found it. -/
theorem Stacked.below (h : Stacked (.destroying id :: s)) : ∃ rest, s = .clearing id :: rest := h.1

theorem Trail.stacked (h : Trail Command.LeavesKernels (m :: older)) : Stacked (marks m.stack) := by
  have h' := h.moves (I := fun t => ∀ m ∈ t.head?, Stacked (marks m.stack))
    (fun c => Command.Staged.leavesKernels) (fun environment m hm => by cases hm; trivial)
    fun n m older _ hturns ih x hx => by
      cases hx
      exact (ih m rfl).turns hturns
  exact h' m rfl

/-! ### The destruction of a kernel -/

/-- The destruction of a kernel starts the next teardown event, or it ends because none is left. -/
theorem Machine.stepDestroy_cases (w : World) (id : KernelId) (rest : List Frame)
    (result : Option (Except Panic Reply)) :
    (∃ watched k e later, w.engine? id = some (.builtIn watched k) ∧ k.teardowns = e :: later ∧
      Machine.stepDestroy ⟨w, .destroying id :: rest, result⟩ id rest =
        Machine.startAction
          ⟨w.setEngine id (.builtIn watched { k with teardowns := later }),
            .destroying id :: rest, result⟩ e.action) ∨
      (∀ e, ¬ w.Registered id e) ∧
        marks (Machine.stepDestroy ⟨w, .destroying id :: rest, result⟩ id rest).stack =
          marks rest ∧
        ∀ e, ¬ (Machine.stepDestroy ⟨w, .destroying id :: rest, result⟩ id rest).world.Registered
          id e := by
  unfold Machine.stepDestroy
  split
  · rename_i watched k hk
    split
    · rename_i e k' hq
      obtain ⟨later, ht, rfl⟩ := Kernel.popTeardown_eq_some.1 hq
      exact .inl ⟨watched, k, e, later, hk, ht, rfl⟩
    · rename_i hq
      have ht := Kernel.popTeardown_eq_none.1 hq
      refine .inr ⟨?_, Machine.marks_deliver _, ?_⟩
      · rintro e ⟨watched', k', hk', he⟩
        rw [hk] at hk'
        cases hk'
        rw [ht] at he
        cases he
      · intro e hr
        have ha : (w.setEngine id (.builtIn watched k.sweep.2)).Aside
            (Machine.deliver ⟨_, rest, result⟩ .done).world :=
          (World.aside_releaseAll _ k.sweep.1).trans (Machine.aside_deliver .done)
        obtain ⟨watched', k', hk', he⟩ := (World.registered_aside ha).1 hr
        rw [World.engine?_setEngine_self hk] at hk'
        cases hk'
        rw [show k.sweep.2.teardowns = k.teardowns from rfl, ht] at he
        cases he
  · rename_i hno
    have hw (e : TeardownEvent Action) : ¬ w.Registered id e := by
      rintro ⟨watched, k, hk, -⟩
      exact hno watched k hk
    refine .inr ⟨hw, Machine.marks_deliver _, fun e hr => hw e ?_⟩
    exact (World.registered_aside (Machine.aside_deliver .done)).1 hr

/-- A move from a state in the middle of a call is a step. -/
theorem Trail.eq_step (h : Trail p (n :: m :: older)) (hs : m.stack ≠ []) : n = m.step := by
  cases h with
  | call _ he => exact (hs he).elim
  | step => rfl

theorem eq_destroying_of_marks {stack : List Frame} (h : marks stack = .destroying id :: s) :
    ∃ rest, stack = .destroying id :: rest ∧ marks rest = s := by
  cases stack with
  | nil => cases h
  | cons f rest =>
    obtain ⟨hf, hrest⟩ := List.cons.inj h
    cases f with
    | destroying =>
      cases hf
      exact ⟨rest, rfl, hrest⟩
    | _ => cases hf

/-- At the end of a teardown the kernel that it has found has just been destroyed, and has no
teardown event. -/
theorem Trail.destroys_of_clearing (h : Trail Command.LeavesKernels (n :: m :: older))
    {rest : List Frame} (hn : n.stack = .clearing found :: rest) :
    Destroys found m n ∧ ∀ e, ¬ n.world.Registered found e := by
  have hstacked := h.tail.stacked
  have hmarks : marks n.stack = .clearing found :: marks rest := by rw [hn]; rfl
  cases h.turns fun c => Command.Staged.leavesKernels with
  | shifted _ hs =>
    rw [hmarks] at hs
    generalize hm : marks m.stack = s at hs hstacked
    cases hs with
    | same ho => exact (not_open_clearing _ _ ho).elim
    | popped => exact (not_open_clearing _ _ hstacked.1).elim
    | destroyed id =>
      obtain ⟨rest', hbelow⟩ := hstacked.below
      cases hbelow
      obtain ⟨rest', hstack, -⟩ := eq_destroying_of_marks hm
      have hstep := h.eq_step (by rw [hstack]; exact List.cons_ne_nil _ _)
      obtain ⟨w, stack, result⟩ := m
      cases hstack
      rcases Machine.stepDestroy_cases w found rest' result with
        ⟨watched, k, e, later, -, -, heq⟩ | ⟨hw, -, hw'⟩
      · have hn' : n = _ := hstep.trans heq
        rcases Machine.stack_startAction _ _ result e.action with hs | ⟨hs, -⟩
        · rw [hn', hs] at hn
          cases hn
        · rw [hn', hs] at hn
          cases hn
      · refine ⟨.inl ⟨rest', rfl, hw⟩, ?_⟩
        rw [hstep]
        exact hw'
  | @torn id below hslot _ _ hengines _ hbelow hor =>
    rcases hor with ⟨hor, hno⟩ | hor
    · rw [hmarks] at hor
      cases hor
      refine ⟨.inr ⟨hno, rest, hn, ?_⟩, ?_⟩
      · have hlen (l : List Frame) : (marks l).length = l.length := List.length_map _
        rw [← hlen m.stack, ← hlen rest]
        rcases hbelow with hb | hb
        · exact Nat.le_of_eq (congrArg List.length hb).symm
        · rw [hb]
          exact Nat.le_succ _
      · rintro e ⟨watched, k, hk, -⟩
        rw [World.engine?, hengines] at hk
        exact hno ⟨watched, k, hk⟩
    · rw [hmarks] at hor
      cases hor
  | cleared found' hs =>
    rw [hs, hmarks] at hstacked
    exact (not_open_clearing _ _ hstacked.1).elim

/-- A kernel that was destroyed since it came into the slot is taken out at once. -/
theorem Trail.clearing_of_destroyedSince (h : Trail Command.LeavesKernels t)
    (hd : DestroyedSince id t) : ∃ m ∈ t.head?, ∃ rest, m.stack = .clearing id :: rest := by
  have hp (c : Command) (hc : c.Staged) : c.LeavesKernels := hc.leavesKernels
  revert hd
  refine h.moves hp (I := fun t => DestroyedSince id t →
    ∃ m ∈ t.head?, ∃ rest, m.stack = .clearing id :: rest) (fun environment hd => hd.elim)
    fun n m older htrail hturns ih hd => ⟨n, rfl, ?_⟩
  obtain ⟨hslot, hd⟩ : _ ∧ (Destroys id m n ∨ DestroyedSince id (m :: older)) := hd
  rcases hd with (⟨rest, hstack, hnone⟩ | ⟨-, hn⟩) | hd
  · have hstacked := htrail.tail.stacked
    rw [hstack] at hstacked
    obtain ⟨s, hbelow⟩ := hstacked.below
    have hstep := htrail.eq_step (by rw [hstack]; exact List.cons_ne_nil _ _)
    obtain ⟨w, stack, result⟩ := m
    cases hstack
    rcases Machine.stepDestroy_cases w id rest result with
      ⟨watched, k, e, later, hk, ht, -⟩ | ⟨-, hmarks, -⟩
    · exact (hnone e ⟨watched, k, hk, ht ▸ List.mem_cons_self⟩).elim
    · have hmarks' : marks n.stack = .clearing id :: s := by
        rw [hstep]
        exact hmarks.trans hbelow
      obtain ⟨rest', hstack, -⟩ := eq_clearing_of_marks hmarks'
      exact ⟨rest', hstack⟩
  · obtain ⟨rest, hstack, -⟩ := hn
    exact ⟨rest, hstack⟩
  · obtain ⟨x, hx, rest, hstack⟩ := ih hd
    cases hx
    rw [hstack] at hturns
    rw [(Turns.ends hturns).2.1] at hslot
    cases hslot

/-- What is taken out was destroyed since it came into the slot exactly if the teardown has found
it. -/
theorem Trail.destroyedSince_iff (h : Trail Command.LeavesKernels (m :: older))
    (ht : m.TakesOut found id) : DestroyedSince id (m :: older) ↔ id = found := by
  obtain ⟨⟨rest, hstack⟩, hslot⟩ := ht
  constructor
  · intro hd
    obtain ⟨x, hx, rest', hstack'⟩ := h.clearing_of_destroyedSince hd
    cases hx
    rw [hstack] at hstack'
    cases hstack'
    rfl
  · rintro rfl
    cases older with
    | nil =>
      rw [h.stack_of_singleton] at hstack
      cases hstack
    | cons m' older => exact ⟨hslot, .inl (h.destroys_of_clearing hstack).1⟩

/-! ### Dropped events -/

theorem Trail.numbered (h : Trail p (m :: older)) : m.world.Numbered := by
  generalize ht : m :: older = t at h
  induction h generalizing m older with
  | pristine environment =>
    cases ht
    exact World.numbered_pristine environment
  | call _ _ _ ih =>
    cases ht
    exact (Machine.evolves_start _).keeps (fun _ _ _ hx _ hn => World.Numbered.happens hn hx)
      (ih rfl)
  | @step m' _ _ ih =>
    cases ht
    obtain ⟨w, stack, result⟩ := m'
    cases stack with
    | nil => exact ih rfl
    | cons f rest =>
      exact (Machine.evolves_step f rest).keeps
        (fun _ _ _ hx _ hn => World.Numbered.happens hn hx) (ih rfl)

/-- A command takes a teardown event out only by withdrawing it. -/
theorem withdraws_of_brings {c : Command} {x : Happening} (hx : c.Brings w x)
    (ho : Ousts id e x) : ∃ t name, (c = .cancel t name ∨ c = .remove t name) ∧
      (w.handle name).owner = some id ∧ (w.handle name).kind = .teardown ∧
      (w.handle name).uid = e.uid := by
  rcases ho with rfl | rfl | ⟨h, rfl | rfl, ho⟩
  · exact hx.elim
  · exact hx.elim
  · obtain ⟨t, name, rfl, rfl⟩ := hx
    exact ⟨t, name, .inr rfl, ho⟩
  · obtain ⟨t, name, rfl, rfl⟩ := hx
    exact ⟨t, name, .inl rfl, ho⟩

theorem not_ousts_of_building {x : Happening} (hx : World.Building x) : ¬ Ousts id e x := by
  rintro (rfl | rfl | ⟨h, rfl | rfl, -⟩) <;> exact hx

/-- The kernel is about to be taken out of the slot by a teardown that has found another one, and
the program has no name for it. -/
def Machine.Abandons (m : Machine) (id : KernelId) : Prop :=
  ∃ found, m.TakesOut found id ∧ id ≠ found ∧ m.world.isNamed id = false

/-- A teardown that ends leaves the events of all kernels alone but the one in the slot, and this
one's too if it has a name. -/
theorem registered_stepClear {stack rest : List Frame} {result : Option (Except Panic Reply)}
    (hn : w.Numbered) (hr : w.Registered id e) (h : w.slot = some id → w.isNamed id = true) :
    (Machine.stepClear ⟨w, stack, result⟩ rest).world.Registered id e := by
  unfold Machine.stepClear
  refine (World.registered_aside (Machine.aside_deliver .done)).2 ?_
  dsimp only
  split
  · exact hr
  · rename_i j hs
    let v : World := { w with slot := none }
    have hr' : v.Registered id e := hr
    by_cases hj : j = id
    · subst hj
      have hname : v.isNamed j = true := h hs
      show (v.abandon j).Registered j e
      rwa [World.abandon_of_named hname]
    · refine hr'.evolves hn (World.evolves_abandon _ j) ?_
      rintro x (rfl | rfl) (hx | hx | ⟨g, hx | hx, -⟩) <;> cases hx
      exact hj rfl

theorem not_registered_stepClear {stack rest : List Frame}
    {result : Option (Except Panic Reply)} (hs : w.slot = some id) (hname : w.isNamed id = false) :
    ¬ (Machine.stepClear ⟨w, stack, result⟩ rest).world.Registered id e := by
  unfold Machine.stepClear
  intro hr
  have hr := (World.registered_aside (Machine.aside_deliver .done)).1 hr
  simp only [hs] at hr
  exact World.not_registered_abandon (w := { w with slot := none }) hname hr

/-- A frame that is part of no teardown takes a teardown event out only by a command that withdraws
it. -/
theorem withdraws_of_plain {f : Frame} {rest : List Frame} {result : Option (Except Panic Reply)}
    {x : Happening} (hf : f.mark = .plain) (hx : f.Brings w x) (ho : Ousts id e x) :
    Withdraws id e ⟨w, f :: rest, result⟩ n := by
  have haside : ¬ Ousts id e .aside := not_ousts_of_building trivial
  cases f with
  | body reporting left =>
    cases left with
    | nil =>
      cases hx
      exact (haside ho).elim
    | cons c left => exact ⟨c, .inl rfl, withdraws_of_brings hx ho⟩
  | answering =>
    cases hx
    exact (haside ho).elim
  | running j =>
    rcases hx with hx | ⟨d, hd, rfl⟩
    · exact (not_ousts_of_building hx ho).elim
    · rcases ho with h | h | ⟨g, h | h, -⟩ <;> cases h <;> exact hd.elim
  | destroying => cases hf
  | clearing => cases hf
  | scenario run stage =>
    cases stage with
    | probing saved left replies =>
      cases left with
      | nil =>
        cases hx
        exact (haside ho).elim
      | cons probe left => exact ⟨probe.command, .inl rfl, withdraws_of_brings hx ho⟩
    | judged =>
      rcases hx with rfl | rfl
      · exact (haside ho).elim
      · rcases ho with h | h | ⟨g, h | h, -⟩ <;> cases h
    | _ =>
      cases hx
      exact (haside ho).elim

/-- The destruction of a kernel takes out the teardown event that it starts, and no other. -/
theorem launches_or_registered {j : KernelId} {rest : List Frame}
    {result : Option (Except Panic Reply)} (hn : w.Numbered) (hr : w.Registered id e)
    (m : Machine) (hm : m = ⟨w, .destroying j :: rest, result⟩) :
    Launches id e m m.step ∨ m.step.world.Registered id e := by
  subst hm
  by_cases hj : j = id
  · subst hj
    rcases Machine.stepDestroy_cases w j rest result with
      ⟨watched, k, x, later, hk, ht, heq⟩ | ⟨hnone, -⟩
    · obtain ⟨watched', k', hk', he⟩ := hr
      rw [hk] at hk'
      cases hk'
      rw [ht] at he
      rcases List.mem_cons.1 he with rfl | he
      · refine .inl ⟨⟨rest, rfl⟩, ⟨watched, k, later, hk, ht⟩, ?_⟩
        show (Machine.stepDestroy _ j rest).stack = _ ∨
          ∃ p, (Machine.stepDestroy _ j rest).result = some (.error p)
        rw [heq]
        exact (Machine.stack_startAction _ _ _ _).imp_right And.right
      · refine .inr ?_
        show (Machine.stepDestroy _ j rest).world.Registered j e
        rw [heq]
        have hr' :
            (w.setEngine j (.builtIn watched { k with teardowns := later })).Registered j e :=
          ⟨watched, _, World.engine?_setEngine_self hk _, he⟩
        refine hr'.evolves (hn.did hk (.unwound (Kernel.popTeardown_eq_some.2 ⟨later, ht, rfl⟩)))
          (Machine.evolves_startAction x.action) fun y hy => not_ousts_of_building hy
    · exact (hnone e hr).elim
  · refine .inr (hr.evolves hn (Machine.evolves_step (.destroying j) rest) ?_)
    rintro x (hx | ⟨d, hd, rfl⟩) ho
    · exact not_ousts_of_building hx ho
    · rcases ho with h | h | ⟨g, h | h, -⟩ <;> cases h <;> exact hj rfl

/-- **A teardown event is dropped exactly if its kernel has no name and is taken out by a teardown
that has found another one.** -/
theorem Trail.drops_iff (h : Trail Command.LeavesKernels (n :: m :: older)) :
    Drops id e m n ↔ m.world.Registered id e ∧ m.Abandons id := by
  have hn := h.tail.numbered
  constructor
  · rintro ⟨hr, hnr, hnl, hnw⟩
    refine ⟨hr, ?_⟩
    by_contra hna
    refine hnr ?_
    cases h with
    | @call _ _ c _ he _ =>
      refine hr.evolves hn (Machine.evolves_start c) fun x hx ho => hnw ⟨c, .inr ⟨he, rfl⟩, ?_⟩
      exact withdraws_of_brings hx ho
    | step htrail =>
      obtain ⟨w, stack, result⟩ := m
      cases stack with
      | nil => exact hr
      | cons f rest =>
        cases hf : f.mark with
        | plain =>
          exact hr.evolves hn (Machine.evolves_step f rest) fun x hx ho =>
            hnw (withdraws_of_plain hf hx ho)
        | destroying j =>
          cases f <;> cases hf
          exact (launches_or_registered hn hr _ rfl).resolve_left hnl
        | clearing found =>
          cases f <;> cases hf
          refine registered_stepClear hn hr fun hslot => ?_
          by_contra hname
          have hne : id ≠ found := by
            rintro rfl
            cases older with
            | nil => cases htrail.stack_of_singleton
            | cons m' older => exact (htrail.destroys_of_clearing rfl).2 e hr
          exact hna ⟨found, ⟨⟨rest, rfl⟩, hslot⟩, hne, Bool.eq_false_iff.2 hname⟩
  · rintro ⟨hr, found, ⟨⟨rest, hstack⟩, hslot⟩, -, hname⟩
    have hstep := h.eq_step (by rw [hstack]; exact List.cons_ne_nil _ _)
    refine ⟨hr, ?_, ?_, ?_⟩
    · obtain ⟨w, stack, result⟩ := m
      cases hstack
      rw [hstep]
      exact not_registered_stepClear hslot hname
    · rintro ⟨⟨rest', hstack'⟩, -⟩
      rw [hstack] at hstack'
      cases hstack'
    · rintro ⟨c, hc | ⟨hnil, -⟩, -⟩
      · rw [Machine.Starts, hstack] at hc
        exact hc
      · rw [hstack] at hnil
        cases hnil

/-- **What a teardown takes out of the slot.**  The kernel was destroyed since it came into the slot
exactly if the teardown has found it there, and teardown events are dropped exactly if their kernel
has no name and was not found there. -/
theorem Trail.teardown_iff (h : Trail Command.LeavesKernels (n :: m :: older)) :
    (∀ found id, m.TakesOut found id → (DestroyedSince id (m :: older) ↔ id = found)) ∧
      ∀ id e, Drops id e m n ↔ m.world.Registered id e ∧ m.Abandons id :=
  ⟨fun _ _ => h.tail.destroyedSince_iff, fun _ _ => h.drops_iff⟩

/-! ### A kernel built by a teardown event -/

/-- A teardown event that another teardown event registers with the kernel that it has built. -/
def lateEvent : TeardownEvent Action := ⟨1, .silent []⟩

/-- A teardown whose event has torn down by itself and registered `lateEvent`: the outer teardown is
about to end. -/
def overtaken : Machine :=
  let late : Command := .schedule .facade .atTeardown (.numbered 1) (.silent [])
  let m := Machine.ofCall (.pristine none)
    (.schedule .facade .atTeardown (.numbered 0) (.silent [.teardown, late]))
  (Machine.ofCall m.world .teardown).step.step.step.step.step.step.step

theorem trail_overtaken : ∃ older, Trail Command.LeavesKernels (overtaken :: older) := by
  unfold overtaken
  refine ⟨_, .step (.step (.step (.step (.step (.step (.step
    (.call (.call (.pristine none) ?_ ?_) ?_ ?_)))))))⟩
  all_goals
    first
    | rfl
    | simp [Command.All, Action.silent, Action.All, allOf, Command.LeavesKernels]

/-- The late event is dropped without having run. -/
theorem drops_overtaken : Drops 1 lateEvent overtaken overtaken.step := by
  obtain ⟨older, h⟩ := trail_overtaken
  obtain ⟨k, hk, ht⟩ : ∃ k, overtaken.world.engine? 1 = some (.builtIn false k) ∧
      k.teardowns = [lateEvent] := ⟨_, rfl, rfl⟩
  have htakes : overtaken.TakesOut 0 1 := ⟨⟨[], rfl⟩, by decide +kernel⟩
  refine (h.step.teardown_iff.2 1 lateEvent).2 ⟨⟨false, k, hk, ?_⟩, 0, htakes, by decide, ?_⟩
  · rw [ht]
    exact List.mem_singleton_self _
  · decide +kernel

end EventSim
