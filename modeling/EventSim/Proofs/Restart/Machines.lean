import EventSim.Proofs.Machine.Sights
import EventSim.Proofs.Restart.Worlds

/-!
# Programs that start anew

Two machines go on alike if the world of the one resumes that of the other, and if what waits on
their stacks is the same but for the numbers of the kernels.  **They take every step together**
(`Resumes.step`), and the same is seen of it (`Resumes.sight?`).  So a program of calls through the
facade is seen alike in both worlds (`World.Resumes.scenes`).
-/

namespace EventSim

/-- The frame under later numbers of the kernels. -/
def Frame.later (n : Nat) : Frame → Frame
  | .running id => .running (id + n)
  | .destroying id => .destroying (id + n)
  | .clearing found => .clearing (found + n)
  | f => f

/-- What the frame may still carry out goes through the facade. -/
def Frame.OnStage (noted : Prop) : Frame → Prop
  | .body _ left | .answering _ _ left => ∀ c ∈ left, c.All (Command.OnStage noted)
  | .running _ | .destroying _ | .clearing _ => True
  | .scenario .. => False

theorem Frame.OnStage.all {noted : Prop} {f : Frame} (h : f.OnStage noted) :
    f.All (Command.OnStage noted) := by
  cases f with
  | body | answering => exact h
  | running | destroying | clearing => trivial
  | scenario => exact h.elim

/-- The same event starts, or calls end alike. -/
inductive Sight.Matches (n : Nat) (stale : List Handle) : Sight → Sight → Prop
  | started (payload : Payload Action) (now : Time) (context : Context) :
      Matches n stale (.started payload now context) (.started payload now context)
  | unwound (a : Action) (now : Time) (context : Context) :
      Matches n stale (.unwound a now context) (.unwound a now context)
  | answered {x y : Except Panic Reply} : Answer.Matches n stale x y →
      Matches n stale (.answered x) (.answered y)

/-- The same is seen of the calls, and they end alike. -/
structure Scene.Matches (n : Nat) (stale : List Handle) (x y : Scene) : Prop where
  seen : List.Forall₂ (Sight.Matches n stale) (x.seen.map Prod.fst) (y.seen.map Prod.fst)
  answer : Answer.Matches n stale x.answer y.answer

namespace Machine

/-- The world of the second machine resumes that of the first, and the same waits on their stacks
but for the numbers of the kernels. -/
structure Resumes (n : Nat) (stale : List Handle) (noted : Prop) (m m' : Machine) : Prop where
  world : m.world.Resumes n stale noted m'.world
  stack : m'.stack = m.stack.map (Frame.later n)
  waiting : ∀ f ∈ m.stack, f.OnStage noted
  result : Option.Rel (Answer.Matches n stale) m.result m'.result

variable {n : Nat} {stale : List Handle} {noted : Prop} {w v : World} {s rest : List Frame}
  {r r' : Option (Except Panic Reply)} {m m' : Machine}

namespace Resumes

section

variable (h : w.Resumes n stale noted v)

include h

/-! ### Ends of calls -/

theorem panic (p : Panic) (s' : List Frame) :
    Resumes n stale noted (Machine.panic ⟨w, s, r⟩ p) (Machine.panic ⟨v, s', r'⟩ p) :=
  ⟨h.forgetInjected, rfl, fun f hf => (by cases hf), .some (.panicked p)⟩

variable (hs : ∀ f ∈ s, f.OnStage noted) (hr : Option.Rel (Answer.Matches n stale) r r')

include hs hr

theorem deliver {x y : Reply} (hxy : x.Matches n stale y) :
    Resumes n stale noted (Machine.deliver ⟨w, s, r⟩ x)
      (Machine.deliver ⟨v, s.map (Frame.later n), r'⟩ y) := by
  cases s with
  | nil => exact ⟨h, rfl, hs, .some (.replied hxy)⟩
  | cons f rest =>
    have hf := List.forall_mem_cons.1 hs
    cases f with
    | answering reporting command left =>
      refine ⟨?_, rfl, List.forall_mem_cons.2 hf, hr⟩
      simp only [Machine.deliver, List.map_cons, Frame.later]
      split
      · exact h.log _ _
      · exact h
    | scenario => exact hf.1.elim
    | body | running | destroying | clearing => exact ⟨h, rfl, hs, hr⟩

theorem done : Resumes n stale noted (Machine.deliver ⟨w, s, r⟩ .done)
    (Machine.deliver ⟨v, s.map (Frame.later n), r'⟩ .done) := deliver h hs hr (.same .done)

/-! ### Starts of calls -/

theorem startAction {a : Action} (ha : a.OnStage noted) :
    Resumes n stale noted (Machine.startAction ⟨w, s, r⟩ a)
      (Machine.startAction ⟨v, s.map (Frame.later n), r'⟩ a) := by
  have hbody {w v : World} (h : w.Resumes n stale noted v) : Resumes n stale noted
      ⟨w, .body a.reporting a.body :: s, r⟩
      ⟨v, .body a.reporting a.body :: s.map (Frame.later n), r'⟩ :=
    ⟨h, rfl, List.forall_mem_cons.2 ⟨Action.all_iff.1 ha.2, hs⟩, hr⟩
  unfold Machine.startAction
  dsimp only
  cases htag : a.tag with
  | none => exact hbody h
  | some tag =>
    have ht : a.target = .facade := ha.1.resolve_left fun hnone => by
      rw [hnone] at htag
      cases htag
    have hnow := h.nowOf
    rw [ht]
    generalize w.nowOf .facade = x at hnow
    generalize v.nowOf .facade = y at hnow
    cases hnow with
    | panicked p => exact panic h p _
    | @had now _ w' v' heq h' =>
      subst heq
      have hcontext := h'.contextOf
      dsimp only
      generalize w'.contextOf .facade = x at hcontext
      generalize v'.contextOf .facade = y at hcontext
      cases hcontext with
      | panicked p => exact panic h' p _
      | @had context _ w'' v'' heq h'' =>
        subst heq
        exact hbody (h''.log _ _)

theorem beginRun (id : KernelId) :
    Resumes n stale noted (Machine.beginRun ⟨w, s, r⟩ id)
      (Machine.beginRun ⟨v, s.map (Frame.later n), r'⟩ (id + n)) := by
  unfold Machine.beginRun
  dsimp only
  rw [h.engine?]
  cases w.engine? id with
  | none => exact done h hs hr
  | some e =>
    cases e with
    | builtIn watched k =>
      exact ⟨h.setEngine id _, rfl, List.forall_mem_cons.2 ⟨trivial, hs⟩, hr⟩
    | fixed k => exact done h hs hr

theorem beginDestroy (id : KernelId) :
    Resumes n stale noted (Machine.beginDestroy ⟨w, s, r⟩ id)
      (Machine.beginDestroy ⟨v, s.map (Frame.later n), r'⟩ (id + n)) := by
  unfold Machine.beginDestroy
  dsimp only
  rw [h.engine?]
  cases w.engine? id with
  | none => exact done h hs hr
  | some e =>
    cases e with
    | builtIn watched k =>
      refine ⟨?_, rfl, List.forall_mem_cons.2 ⟨trivial, hs⟩, hr⟩
      cases watched with
      | false => exact h
      | true => exact h.log _ _
    | fixed k => exact done h hs hr

theorem beginTeardown :
    Resumes n stale noted (Machine.beginTeardown ⟨w, s, r⟩)
      (Machine.beginTeardown ⟨v, s.map (Frame.later n), r'⟩) := by
  have hslot := h.slot
  unfold Machine.beginTeardown
  dsimp only
  split <;> rename_i hw
  · rw [hw, Option.map_none] at hslot
    rw [hslot]
    exact done h hs hr
  · rw [hw, Option.map_some] at hslot
    split <;> rename_i hv <;> rw [hslot] at hv <;> cases hv
    exact beginDestroy (s := .clearing _ :: s) (h.told .none .none _ _ _ _)
      (List.forall_mem_cons.2 ⟨trivial, hs⟩) hr _

/-- A command that runs nothing starts and ends alike. -/
theorem conclude {c : Command} (hd : c.drives = false) (hc : c.OnStage noted) :
    Resumes n stale noted (Machine.start ⟨w, s, r⟩ c)
      (Machine.start ⟨v, s.map (Frame.later n), r'⟩ c) := by
  have hend := World.ResumesEnd.perform h hc
  rw [start_of_not_drives hd, start_of_not_drives hd]
  generalize w.perform c = x at hend
  generalize v.perform c = y at hend
  obtain ⟨reply, w'⟩ := x
  obtain ⟨reply', v'⟩ := y
  obtain ⟨hreply, h'⟩ := hend
  dsimp only at hreply h'
  cases hreply with
  | panicked p => exact panic h' p _
  | replied hm => exact deliver h' hs hr hm

/-- **A command starts alike.** -/
theorem start {c : Command} (hc : c.OnStage noted) :
    Resumes n stale noted (Machine.start ⟨w, s, r⟩ c)
      (Machine.start ⟨v, s.map (Frame.later n), r'⟩ c) := by
  cases c with
  | run t =>
    obtain rfl : t = .facade := hc.resolve_right fun h => h.2
    have hreach := h.reach
    unfold Machine.start
    dsimp only
    generalize w.reach .facade = x at hreach
    generalize v.reach .facade = y at hreach
    cases hreach with
    | panicked p => exact panic h p _
    | had heq h' =>
      subst heq
      exact beginRun h' hs hr _
  | destroy t =>
    obtain rfl : t = .facade := hc.resolve_right fun h => h.2
    have hreach := h.reach
    unfold Machine.start
    dsimp only
    generalize w.reach .facade = x at hreach
    generalize v.reach .facade = y at hreach
    cases hreach with
    | panicked p => exact panic h p _
    | had heq h' =>
      subst heq
      exact beginDestroy h' hs hr _
  | teardown => exact beginTeardown h hs hr
  | scenario => exact (hc.resolve_right fun h => h.2).elim
  | _ => exact conclude h hs hr rfl hc

end

/-! ### Steps -/

section

variable (h : w.Resumes n stale noted v) (hh : w.Holds (Action.OnStage noted))
  (hs : ∀ f ∈ s, f.OnStage noted) (hr : Option.Rel (Answer.Matches n stale) r r')

include h hh hs hr

theorem stepRun (id : KernelId) :
    Resumes n stale noted (Machine.stepRun ⟨w, .running id :: s, r⟩ id s)
      (Machine.stepRun ⟨v, .running (id + n) :: s.map (Frame.later n), r'⟩ (id + n)
        (s.map (Frame.later n))) := by
  have hs' : ∀ f ∈ Frame.running id :: s, f.OnStage noted := List.forall_mem_cons.2 ⟨trivial, hs⟩
  unfold Machine.stepRun
  dsimp only
  rw [h.engine?]
  cases he : w.engine? id with
  | none => exact done h hs hr
  | some e =>
    cases e with
    | fixed k => exact done h hs hr
    | builtIn watched k =>
      simp only [Option.map_some, Engine.later, Kernel.dequeue_later]
      cases hq : k.dequeue with
      | idle => exact done (h.setEngine id (.builtIn watched k.endRun)) hs hr
      | skipped payload k' =>
        exact ⟨(h.setEngine id (.builtIn watched k')).releaseAll _ _, rfl, hs', hr⟩
      | past payload k' =>
        exact panic ((h.setEngine id (.builtIn watched k')).releaseAll _ _) _ _
      | started e k' =>
        simp only [Dequeued.later]
        cases hp : e.payload with
        | halt => exact ⟨h.setEngine id (.builtIn watched k'.stop), rfl, hs', hr⟩
        | act a =>
          have ha : a.OnStage noted := by
            refine hh id watched k he a ?_
            rw [← hp]
            exact (Kernel.Does.started hq).load.subset
              (List.mem_append_left _ List.mem_cons_self)
          exact startAction (s := .running id :: s) (h.setEngine id (.builtIn watched k')) hs' hr
            ha

theorem stepDestroy (id : KernelId) :
    Resumes n stale noted (Machine.stepDestroy ⟨w, .destroying id :: s, r⟩ id s)
      (Machine.stepDestroy ⟨v, .destroying (id + n) :: s.map (Frame.later n), r'⟩ (id + n)
        (s.map (Frame.later n))) := by
  have hs' : ∀ f ∈ Frame.destroying id :: s, f.OnStage noted :=
    List.forall_mem_cons.2 ⟨trivial, hs⟩
  unfold Machine.stepDestroy
  dsimp only
  rw [h.engine?]
  cases he : w.engine? id with
  | none => exact done h hs hr
  | some e =>
    cases e with
    | fixed k => exact done h hs hr
    | builtIn watched k =>
      simp only [Option.map_some, Engine.later, Kernel.popTeardown_later]
      cases hq : k.popTeardown with
      | none =>
        exact done ((h.setEngine id (.builtIn watched k.sweep.2)).releaseAll _ _) hs hr
      | some x =>
        obtain ⟨e, k'⟩ := x
        have ha : e.action.OnStage noted := by
          refine hh id watched k he _ ?_
          exact (Kernel.Does.unwound hq).load.subset (List.mem_append_left _ List.mem_cons_self)
        exact startAction (s := .destroying id :: s) (h.setEngine id (.builtIn watched k')) hs' hr
          ha

omit hh in
theorem stepClear (found : KernelId) :
    Resumes n stale noted (Machine.stepClear ⟨w, .clearing found :: s, r⟩ s)
      (Machine.stepClear ⟨v, .clearing (found + n) :: s.map (Frame.later n), r'⟩
        (s.map (Frame.later n))) := by
  unfold Machine.stepClear
  dsimp only
  rw [h.slot]
  cases w.slot with
  | none => exact done h hs hr
  | some id => exact done ((h.setSlot none).abandon id) hs hr

end

/-- **The machines take every step together.** -/
theorem step (h : m.Resumes n stale noted m') (hh : m.world.Holds (Action.OnStage noted)) :
    m.step.Resumes n stale noted m'.step := by
  obtain ⟨w, s, r⟩ := m
  obtain ⟨v, s', r'⟩ := m'
  obtain ⟨hw, hstack, hs, hr⟩ := h
  dsimp only at hw hstack hs hr hh
  subst hstack
  cases s with
  | nil => exact ⟨hw, rfl, hs, hr⟩
  | cons f rest =>
    obtain ⟨hf, hrest⟩ := List.forall_mem_cons.1 hs
    cases f with
    | body reporting left =>
      cases left with
      | nil => exact ⟨hw, rfl, hrest, hr⟩
      | cons c left =>
        obtain ⟨hc, hleft⟩ := List.forall_mem_cons.1 hf
        refine start (s := .answering reporting c.name left :: rest) ?_
          (List.forall_mem_cons.2 ⟨hleft, hrest⟩) hr hc.self
        split
        · exact hw.log _ _
        · exact hw
    | answering reporting command left =>
      exact ⟨hw, rfl, List.forall_mem_cons.2 ⟨hf, hrest⟩, hr⟩
    | running id => exact stepRun hw hh hrest hr id
    | destroying id => exact stepDestroy hw hh hrest hr id
    | clearing found => exact stepClear hw hrest hr found
    | scenario => exact hf.elim

/-- All that the kernels hold still goes through the facade. -/
theorem holds_step (h : m.Resumes n stale noted m') (hh : m.world.Holds (Action.OnStage noted)) :
    m.step.world.Holds (Action.OnStage noted) := by
  obtain ⟨w, s, r⟩ := m
  cases s with
  | nil => exact hh
  | cons f rest =>
    refine Machine.holds_step hh fun c a hc hcarries => ?_
    exact ((h.waiting f List.mem_cons_self).all.next hc).onStage hcarries

/-! ### What is seen -/

theorem lastSight (n : Nat) (stale : List Handle) (s : List Frame) :
    Option.Rel (Sight.Matches n stale) (lastSight? s) (lastSight? (s.map (Frame.later n))) := by
  cases s with
  | nil => exact .none
  | cons f rest => exact .some (.answered (.same .done))

/-- **The same is seen of the next step.** -/
theorem sight? (h : m.Resumes n stale noted m') :
    Option.Rel (Sight.Matches n stale) m.sight? m'.sight? := by
  obtain ⟨w, s, r⟩ := m
  obtain ⟨v, s', r'⟩ := m'
  obtain ⟨hw, hstack, hs, -⟩ := h
  dsimp only at hw hstack hs
  subst hstack
  cases s with
  | nil => exact .none
  | cons f rest =>
    obtain ⟨hf, -⟩ := List.forall_mem_cons.1 hs
    cases f with
    | body reporting left =>
      cases left with
      | nil => exact .none
      | cons c left =>
        simp only [Machine.sight?, List.map_cons, Frame.later]
        split
        · exact .none
        · exact .some (.answered (World.ResumesEnd.perform hw (hf c List.mem_cons_self).self).reply)
    | running id =>
      simp only [Machine.sight?, List.map_cons, Frame.later, hw.engine?]
      cases w.engine? id with
      | none => exact .none
      | some e =>
        cases e with
        | fixed k => exact .none
        | builtIn watched k =>
          simp only [Option.map_some, Engine.later, Kernel.dequeue_later]
          cases k.dequeue with
          | idle => exact lastSight n stale rest
          | skipped | past => exact .none
          | started e k => exact .some (.started _ _ _)
    | destroying id =>
      simp only [Machine.sight?, List.map_cons, Frame.later, hw.engine?]
      cases w.engine? id with
      | none => exact .none
      | some e =>
        cases e with
        | fixed k => exact .none
        | builtIn watched k =>
          simp only [Option.map_some, Engine.later, Kernel.popTeardown_later]
          cases k.popTeardown with
          | none => exact lastSight n stale rest
          | some x => exact .some (.unwound _ _ _)
    | answering | clearing | scenario => exact .none

theorem glimpse (h : m.Resumes n stale noted m') :
    List.Forall₂ (Sight.Matches n stale) (m.glimpse.map Prod.fst) (m'.glimpse.map Prod.fst) := by
  have hs := h.sight?
  unfold Machine.glimpse
  generalize m.sight? = x at hs
  generalize m'.sight? = y at hs
  cases hs with
  | none => exact .nil
  | some hxy => exact .cons hxy .nil

theorem isEmpty_stack (h : m.Resumes n stale noted m') : m'.stack.isEmpty = m.stack.isEmpty := by
  rw [h.stack, List.isEmpty_map]

/-! ### Whole calls -/

theorem steps (h : m.Resumes n stale noted m') (hh : m.world.Holds (Action.OnStage noted))
    (i : Nat) :
    (Machine.steps i m).Resumes n stale noted (Machine.steps i m') ∧
      (Machine.steps i m).world.Holds (Action.OnStage noted) := by
  induction i generalizing m m' with
  | zero => exact ⟨h, hh⟩
  | succ i ih =>
    rw [Machine.steps, Machine.steps, h.isEmpty_stack]
    split
    · exact ⟨h, hh⟩
    · exact ih (h.step hh) (h.holds_step hh)

theorem sights (h : m.Resumes n stale noted m') (hh : m.world.Holds (Action.OnStage noted))
    (i : Nat) :
    List.Forall₂ (Sight.Matches n stale) ((m.sights i).map Prod.fst)
      ((m'.sights i).map Prod.fst) := by
  induction i generalizing m m' with
  | zero => exact .nil
  | succ i ih =>
    rw [Machine.sights, Machine.sights, h.isEmpty_stack]
    split
    · exact .nil
    · rw [List.map_append, List.map_append]
      exact List.rel_append h.glimpse (ih (h.step hh) (h.holds_step hh))

end Resumes

/-- The end of a call and all that is seen of it can be had by more steps than it takes. -/
theorem seen_eq_sights {i : Nat} (hi : m.weight ≤ i) :
    m.seen = m.sights i ∧ m.run = Machine.steps i m := (sees_steps i m).ends (stack_steps hi)

/-- **A call is seen alike**, and the machines go on alike. -/
theorem Resumes.run (h : m.Resumes n stale noted m') (hh : m.world.Holds (Action.OnStage noted)) :
    List.Forall₂ (Sight.Matches n stale) (m.seen.map Prod.fst) (m'.seen.map Prod.fst) ∧
      m.run.Resumes n stale noted m'.run ∧ m.run.world.Holds (Action.OnStage noted) := by
  -- The machines do not weigh the same, for old kernels may still hold something.
  obtain ⟨hseen, hrun⟩ := m.seen_eq_sights (Nat.le_add_right m.weight m'.weight)
  obtain ⟨hseen', hrun'⟩ := m'.seen_eq_sights (Nat.le_add_left m'.weight m.weight)
  rw [hseen, hseen', hrun, hrun']
  exact ⟨h.sights hh _, h.steps hh _⟩

end Machine

namespace World

variable {n : Nat} {stale : List Handle} {noted : Prop} {w v : World} {c : Command}
  {Q : List Command}

theorem Resumes.ofCall (h : w.Resumes n stale noted v) (hh : w.Holds (Action.OnStage noted))
    (hc : c.All (Command.OnStage noted)) :
    (Machine.ofCall w c).Resumes n stale noted (Machine.ofCall v c) ∧
      (Machine.ofCall w c).world.Holds (Action.OnStage noted) :=
  ⟨.start (s := []) h (fun f hf => by cases hf) .none hc.self,
    Machine.holds_start hh fun _ => hc.onStage⟩

theorem Resumes.call (h : w.Resumes n stale noted v) (hh : w.Holds (Action.OnStage noted))
    (hc : c.All (Command.OnStage noted)) :
    (w.scene c).Matches n stale (v.scene c) ∧ (w.call c).2.Resumes n stale noted (v.call c).2 ∧
      (w.call c).2.Holds (Action.OnStage noted) := by
  obtain ⟨hm, hholds⟩ := h.ofCall hh hc
  obtain ⟨hseen, hrun, hholds'⟩ := hm.run hholds
  refine ⟨⟨hseen, ?_⟩, hrun.world, hholds'⟩
  have hresult := hrun.result
  simp only [World.scene, World.call]
  generalize (Machine.ofCall w c).run.result = x at hresult
  generalize (Machine.ofCall v c).run.result = y at hresult
  cases hresult with
  | none => exact .same .done
  | some hxy => exact hxy

/-- **A program through the facade is seen alike.** -/
theorem Resumes.scenes (h : w.Resumes n stale noted v) (hh : w.Holds (Action.OnStage noted))
    (hQ : ∀ c ∈ Q, c.All (Command.OnStage noted)) :
    List.Forall₂ (Scene.Matches n stale) (w.scenes Q) (v.scenes Q) := by
  induction Q generalizing w v with
  | nil => exact .nil
  | cons c rest ih =>
    obtain ⟨hc, hrest⟩ := List.forall_mem_cons.1 hQ
    obtain ⟨hscene, hafter, hholds⟩ := h.call hh hc
    exact .cons hscene (ih hafter hholds hrest)

/-- The program comes to the world `u` on its way: between its calls or in the middle of one. -/
inductive Comes : World → List Command → World → Prop
  | here (w : World) (Q : List Command) : Comes w Q w
  | amid (w : World) (c : Command) (Q : List Command) (i : Nat) :
      Comes w (c :: Q) ((Machine.ofCall w c).steps i).world
  | later {w u : World} {c : Command} {Q : List Command} :
      Comes (w.call c).2 Q u → Comes w (c :: Q) u

/-- Wherever a program comes to, it is a world that resumes another one. -/
theorem Resumes.comes {u : World} (h : w.Resumes n stale noted v)
    (hh : w.Holds (Action.OnStage noted)) (hQ : ∀ c ∈ Q, c.All (Command.OnStage noted))
    (hu : v.Comes Q u) : ∃ w' : World, w'.Resumes n stale noted u := by
  induction hu generalizing w with
  | here v Q => exact ⟨w, h⟩
  | amid v c Q i =>
    obtain ⟨hm, hholds⟩ := h.ofCall hh (hQ c List.mem_cons_self)
    exact ⟨_, (hm.steps hholds i).1.world⟩
  | @later v u c Q _ ih =>
    obtain ⟨hc, hrest⟩ := List.forall_mem_cons.1 hQ
    obtain ⟨-, hafter, hholds⟩ := h.call hh hc
    exact ih hafter hholds hrest

end World

end EventSim
