import EventSim.Proofs.Machine.Steps

/-!
# What a machine carries

`Machine.Carries p` says that all commands that a machine may still carry out satisfy `p`: those
that wait on the stack and those of the actions that the kernels hold.  `Machine.Carries.step`: **a
step keeps it**, since a kernel hands out only what was put in, and an action is put in only by a
command that carries it.  So a property of all commands of a program is a property of all commands
that ever start.
-/

namespace EventSim

variable {p : Command → Prop}

theorem Command.All.carries {c : Command} {a : Action} (h : c.All p) (hc : c.Carries a) :
    a.All p := by
  cases c with
  | schedule t timing name b =>
    simp only [Command.All] at h
    cases hc
    exact h.2
  | scheduleEach t delays name b =>
    simp only [Command.All] at h
    obtain ⟨i, rfl⟩ := hc
    exact (Action.all_numbered i).2 h.2
  | chain t tag delay length name =>
    cases length with
    | zero => exact hc.elim
    | succ left =>
      simp only [Command.All] at h
      cases hc
      simp only [World.link, Action.All, allOf, Command.All, and_true]
      exact fun n hn => h n (Nat.le_succ_of_le hn)
  | _ => exact hc.elim

/-- All commands that a frame may still carry out satisfy `p`. -/
def Frame.All (p : Command → Prop) : Frame → Prop
  | .body _ left | .answering _ _ left => ∀ c ∈ left, c.All p
  | .scenario _ (.probing _ left _) | .scenario _ (.judging _ _ left _) =>
    ∀ x ∈ left, x.command.All p
  | _ => True

/-- The command that a step of a frame starts. -/
def Frame.next? : Frame → Option Command
  | .body _ (c :: _) => some c
  | .scenario _ (.probing _ (probe :: _) _) => some probe.command
  | _ => none

theorem Frame.All.next {f : Frame} {c : Command} (h : f.All p) (hc : f.next? = some c) :
    c.All p := by
  cases f with
  | body reporting left =>
    cases left with
    | nil => cases hc
    | cons c left =>
      cases hc
      exact h c List.mem_cons_self
  | scenario run stage =>
    cases stage with
    | probing saved left replies =>
      cases left with
      | nil => cases hc
      | cons probe left =>
        cases hc
        exact h probe List.mem_cons_self
    | _ => cases hc
  | _ => cases hc

namespace World

variable {w w' : World} {id : KernelId}

/-- All actions that the kernels hold satisfy `q`. -/
def Holds (q : Action → Prop) (w : World) : Prop :=
  ∀ id watched k, w.engine? id = some (.builtIn watched k) → ∀ a, Payload.act a ∈ k.load → q a

/-- All actions that one kernel holds satisfy `q`. -/
def HoldsAt (id : KernelId) (q : Action → Prop) (w : World) : Prop :=
  ∀ watched k, w.engine? id = some (.builtIn watched k) → ∀ a, Payload.act a ∈ k.load → q a

variable {q : Action → Prop}

theorem HoldsAt.aside (h : w.HoldsAt id q) (ha : w.Aside w') : w'.HoldsAt id q := by
  intro watched k hk
  rw [engine?, ha.engines] at hk
  exact h watched k hk

theorem HoldsAt.did {j : KernelId} {watched : Bool} {k k' : Kernel Action} {d : Deed Action}
    (h : w.HoldsAt id q) (hk : w.engine? j = some (.builtIn watched k)) (hd : k.Does d k')
    (ht : j = id → ∀ a, Payload.act a ∈ d.taken → q a) :
    (w.setEngine j (.builtIn watched k')).HoldsAt id q := by
  intro watched' k'' hk' a ha
  rcases engine?_setEngine hk' with ⟨rfl, he⟩ | ⟨-, hk'⟩
  · cases he
    exact hd.holds (ht rfl) (h watched k hk) a ha
  · exact h watched' k'' hk' a ha

theorem HoldsAt.attach (h : w.HoldsAt id q) (j : KernelId) (b : Backend) :
    (w.attach j b).HoldsAt id q :=
  attach_induction (I := HoldsAt id q) h (fun _ _ ha hv => hv.aside ha)
    fun _ _ k hk hv => hv.did hk (.attached k b) fun _ a ha => by cases ha

/-- A kernel holds nothing but what it held before or has taken in. -/
theorem HoldsAt.happens {x : Happening} (h : w.HoldsAt id q) (hx : w.Happens x w')
    (ht : ∀ d, x = .did id d → ∀ a, Payload.act a ∈ d.taken → q a) : w'.HoldsAt id q := by
  cases hx with
  | aside ha => exact h.aside ha
  | made spec =>
    intro watched k hk a ha
    rcases engine?_append hk with hk | ⟨-, he⟩
    · exact h watched k hk a ha
    · cases spec <;> cases he <;> cases ha
  | did hk hd hp => exact h.did hk hd fun hj => ht _ (hj ▸ rfl)
  | issued name hk hi => exact h.did hk (.issued hi) fun hj => ht _ (hj ▸ rfl)
  | @occupied j name b hs hb => exact HoldsAt.attach (w := { w with slot := some j }) h j b
  | configured hb => exact h.attach _ _
  | blank => exact h
  | forged => exact h
  | enlisted => exact h
  | vacated => exact h
  | unprinted => exact h
  | printed => exact h

theorem Holds.did {watched : Bool} {k k' : Kernel Action} {d : Deed Action} (h : w.Holds q)
    (hk : w.engine? id = some (.builtIn watched k)) (hd : k.Does d k')
    (ht : ∀ a, Payload.act a ∈ d.taken → q a) :
    (w.setEngine id (.builtIn watched k')).Holds q :=
  fun j => HoldsAt.did (h j) hk hd fun _ => ht

/-- Kernels hold nothing but what was held before or was taken in. -/
theorem Holds.happens {x : Happening} (h : w.Holds q) (hx : w.Happens x w')
    (ht : ∀ id d, x = .did id d → ∀ a, Payload.act a ∈ d.taken → q a) : w'.Holds q :=
  fun id => HoldsAt.happens (h id) hx (ht id)

end World

namespace Machine

/-- All commands that a machine may still carry out satisfy `p`. -/
structure Carries (p : Command → Prop) (m : Machine) : Prop where
  stored : m.world.Holds (Action.All p)
  waiting : ∀ f ∈ m.stack, f.All p

variable {w : World} {stack : List Frame} {result : Option (Except Panic Reply)}

/-! ### What waits -/

theorem waiting_deliver (r : Reply) (h : ∀ f ∈ stack, f.All p) :
    ∀ f ∈ (deliver ⟨w, stack, result⟩ r).stack, f.All p := by
  unfold deliver
  dsimp only
  split
  · exact h
  · exact List.forall_mem_cons.2 ⟨(List.forall_mem_cons.1 h).1, (List.forall_mem_cons.1 h).2⟩
  · split
    · exact List.forall_mem_cons.2 ⟨(List.forall_mem_cons.1 h).1, (List.forall_mem_cons.1 h).2⟩
    · exact List.forall_mem_cons.2 ⟨trivial, (List.forall_mem_cons.1 h).2⟩
  · exact h

theorem waiting_panic (e : Panic) : ∀ f ∈ (panic ⟨w, stack, result⟩ e).stack, f.All p :=
  fun f hf => by cases hf

theorem waiting_startAction {a : Action} (ha : a.All p) (h : ∀ f ∈ stack, f.All p) :
    ∀ f ∈ (startAction ⟨w, stack, result⟩ a).stack, f.All p := by
  have hbody : ∀ f ∈ Frame.body a.reporting a.body :: stack, f.All p :=
    List.forall_mem_cons.2 ⟨Action.all_iff.1 ha, h⟩
  unfold startAction
  dsimp only
  split
  · exact hbody
  · split
    · exact waiting_panic _
    · split
      · exact waiting_panic _
      · exact hbody

theorem waiting_beginRun (id : KernelId) (h : ∀ f ∈ stack, f.All p) :
    ∀ f ∈ (beginRun ⟨w, stack, result⟩ id).stack, f.All p := by
  unfold beginRun
  split
  · exact List.forall_mem_cons.2 ⟨trivial, h⟩
  · exact waiting_deliver _ h

theorem waiting_beginDestroy (id : KernelId) (h : ∀ f ∈ stack, f.All p) :
    ∀ f ∈ (beginDestroy ⟨w, stack, result⟩ id).stack, f.All p := by
  unfold beginDestroy
  split
  · exact List.forall_mem_cons.2 ⟨trivial, h⟩
  · exact waiting_deliver _ h

theorem waiting_beginTeardown (h : ∀ f ∈ stack, f.All p) :
    ∀ f ∈ (beginTeardown ⟨w, stack, result⟩).stack, f.All p := by
  unfold beginTeardown
  split
  · exact waiting_deliver _ h
  · exact waiting_beginDestroy _ (List.forall_mem_cons.2 ⟨trivial, h⟩)

theorem waiting_start (c : Command) (h : ∀ f ∈ stack, f.All p) :
    ∀ f ∈ (start ⟨w, stack, result⟩ c).stack, f.All p := by
  unfold start
  split
  · split
    · exact waiting_panic _
    · exact waiting_beginRun _ h
  · split
    · exact waiting_panic _
    · exact waiting_beginDestroy _ h
  · exact waiting_beginTeardown h
  · split
    · exact waiting_deliver _ h
    · exact waiting_beginTeardown (List.forall_mem_cons.2 ⟨trivial, h⟩)
  · split
    · exact waiting_panic _
    · exact waiting_deliver _ h

/-! ### Steps -/

theorem waiting_stepRun {id : KernelId} {rest : List Frame} (hw : w.HoldsAt id (Action.All p))
    (h : ∀ f ∈ Frame.running id :: rest, f.All p) :
    ∀ f ∈ (stepRun ⟨w, .running id :: rest, result⟩ id rest).stack, f.All p := by
  have hrest := (List.forall_mem_cons.1 h).2
  unfold stepRun
  split
  · rename_i watched k he
    split
    · exact waiting_deliver _ hrest
    · exact h
    · exact waiting_panic _
    · rename_i e k' hq
      split
      · exact h
      · rename_i a ha
        refine waiting_startAction (hw watched k he a ?_) h
        have hl := (Kernel.Does.started hq).load.subset (List.mem_append_left _ List.mem_cons_self)
        rwa [ha] at hl
  · exact waiting_deliver _ hrest

theorem waiting_stepDestroy {id : KernelId} {rest : List Frame} (hw : w.HoldsAt id (Action.All p))
    (h : ∀ f ∈ Frame.destroying id :: rest, f.All p) :
    ∀ f ∈ (stepDestroy ⟨w, .destroying id :: rest, result⟩ id rest).stack, f.All p := by
  have hrest := (List.forall_mem_cons.1 h).2
  unfold stepDestroy
  split
  · rename_i watched k he
    split
    · rename_i e k' hq
      refine waiting_startAction (hw watched k he _ ?_) h
      exact (Kernel.Does.unwound hq).load.subset (List.mem_append_left _ List.mem_cons_self)
    · exact waiting_deliver _ hrest
  · exact waiting_deliver _ hrest

theorem waiting_stepScenario (hp : ∀ c, c.Staged → p c) {run : ScenarioRun}
    {stage : ScenarioStage} {rest : List Frame}
    (h : ∀ f ∈ Frame.scenario run stage :: rest, f.All p) :
    ∀ f ∈ (stepScenario ⟨w, .scenario run stage :: rest, result⟩ run stage rest).stack,
      f.All p := by
  obtain ⟨htop, hrest⟩ := List.forall_mem_cons.1 h
  unfold stepScenario
  split
  · unfold stepOpened
    split
    · exact waiting_panic _
    · split
      · exact waiting_panic _
      · exact List.forall_mem_cons.2 ⟨trivial, hrest⟩
      · exact List.forall_mem_cons.2 ⟨run.all_plan hp, hrest⟩
  · exact List.forall_mem_cons.2 ⟨trivial, hrest⟩
  · exact waiting_start _ (List.forall_mem_cons.2 ⟨(List.forall_mem_cons.1 htop).2, hrest⟩)
  · exact List.forall_mem_cons.2 ⟨htop, hrest⟩
  · exact waiting_beginTeardown (List.forall_mem_cons.2 ⟨trivial, hrest⟩)
  · unfold stepRestore
    split
    · exact waiting_panic _
    · exact waiting_deliver _ hrest

theorem waiting_step (hp : ∀ c, c.Staged → p c) {f : Frame} {rest : List Frame}
    (hw : w.Holds (Action.All p)) (h : ∀ g ∈ f :: rest, g.All p) :
    ∀ g ∈ (step ⟨w, f :: rest, result⟩).stack, g.All p := by
  obtain ⟨htop, hrest⟩ := List.forall_mem_cons.1 h
  cases f with
  | body reporting left =>
    cases left with
    | nil => exact hrest
    | cons c left =>
      exact waiting_start c (List.forall_mem_cons.2 ⟨(List.forall_mem_cons.1 htop).2, hrest⟩)
  | answering reporting command left => exact List.forall_mem_cons.2 ⟨htop, hrest⟩
  | running id => exact waiting_stepRun (hw id) h
  | destroying id => exact waiting_stepDestroy (hw id) h
  | clearing found => exact waiting_deliver _ hrest
  | scenario run stage => exact waiting_stepScenario hp h

/-- Whatever a command puts into a kernel is part of what the command carries. -/
theorem carries_of_brings (id : KernelId) {c : Command} {d : Deed Action} {a : Action}
    (hb : c.Brings w (.did id d)) (ha : Payload.act a ∈ d.taken) : c.Carries a := by
  have hb : c.Calls w d := hb
  cases d with
  | stored key payload =>
    cases List.mem_singleton.1 ha
    exact hb
  | registered e =>
    cases List.mem_singleton.1 ha
    exact hb
  | _ => cases ha

/-- Whatever a step puts into a kernel is part of what the command carries that it starts. -/
theorem carries_of_step_brings {f : Frame} {id : KernelId} {d : Deed Action} {a : Action}
    (hb : f.Brings w (.did id d)) (ha : Payload.act a ∈ d.taken) :
    ∃ c, f.next? = some c ∧ c.Carries a := by
  cases f with
  | body reporting left =>
    cases left with
    | nil => cases hb
    | cons c left => exact ⟨c, rfl, carries_of_brings id hb ha⟩
  | running id' =>
    rcases hb with hb | ⟨d', hd, hx⟩
    · exact hb.elim
    · cases hx
      cases d <;> first | exact hd.elim | cases ha
  | destroying id' =>
    rcases hb with hb | ⟨d', hd, hx⟩
    · exact hb.elim
    · cases hx
      cases d <;> first | exact hd.elim | cases ha
  | clearing found =>
    rcases hb with hx | hx | ⟨id', -, hx⟩
    · cases hx
    · cases hx
    · cases hx
      cases ha
  | answering => cases hb
  | scenario run stage =>
    cases stage with
    | probing saved left replies =>
      cases left with
      | nil => cases hb
      | cons probe left => exact ⟨probe.command, rfl, carries_of_brings id hb ha⟩
    | judged => rcases hb with hb | hb <;> cases hb
    | _ => cases hb

/-- After a step, kernels hold what they held before and what the command carries that started. -/
theorem holds_step {q : Action → Prop} {f : Frame} {rest : List Frame} (hw : w.Holds q)
    (hf : ∀ c a, f.next? = some c → c.Carries a → q a) :
    (step ⟨w, f :: rest, result⟩).world.Holds q := by
  refine (evolves_step f rest).keeps (fun v x v' hx hb hv => ?_) hw
  refine hv.happens hx fun id d hd a ha => ?_
  rw [hd] at hb
  obtain ⟨c, hc, hcarries⟩ := carries_of_step_brings hb ha
  exact hf c a hc hcarries

/-- **A step keeps what holds of all commands that may still be carried out.** -/
theorem Carries.step (hp : ∀ c, c.Staged → p c) {m : Machine} (h : m.Carries p) :
    m.step.Carries p := by
  obtain ⟨w, stack, result⟩ := m
  cases stack with
  | nil => exact h
  | cons f rest =>
    refine ⟨holds_step h.stored fun c a hc hcarries => ?_, waiting_step hp h.stored h.waiting⟩
    exact ((h.waiting f List.mem_cons_self).next hc).carries hcarries

/-- Kernels hold what they held before and what the command carries. -/
theorem holds_perform {q : Action → Prop} {c : Command} (hw : w.Holds q)
    (hc : ∀ a, c.Carries a → q a) : (w.perform c).2.Holds q := by
  refine (World.evolves_perform w c).keeps (fun v x v' hx hb hv => ?_) hw
  refine hv.happens hx fun id d hd a ha => hc a ?_
  subst hd
  exact carries_of_brings id hb ha

/-- So they do when the command has started. -/
theorem holds_start {q : Action → Prop} {c : Command} (hw : w.Holds q)
    (hc : ∀ a, c.Carries a → q a) : (start ⟨w, stack, result⟩ c).world.Holds q := by
  refine (evolves_start c).keeps (fun v x v' hx hb hv => ?_) hw
  refine hv.happens hx fun id d hd a ha => hc a ?_
  subst hd
  exact carries_of_brings id hb ha

/-- A call carries the commands of its program. -/
theorem Carries.ofCall {c : Command} (hw : w.Holds (Action.All p)) (hc : c.All p) :
    (Machine.ofCall w c).Carries p :=
  ⟨holds_start hw fun _ => hc.carries, waiting_start c fun f hf => by cases hf⟩

end Machine

end EventSim
