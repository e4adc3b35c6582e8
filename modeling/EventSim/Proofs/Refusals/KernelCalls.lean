import EventSim.Proofs.Backends.Programs

/-!
# Programs of kernel calls

A program `OnKernel` makes single calls on kernels, inside of actions as well as outside, and
nothing else.  `Machine.OnKernel.step`: **what it puts onto the stack and into the kernels makes
such calls only.**
-/

namespace EventSim

/-- The command is a single call on a kernel, or one that concerns handles alone.  A loop of calls
and a chain are to be written out. -/
def Command.OnKernel : Command → Prop
  | .schedule t _ _ a => t.IsKernel ∧ a.Local
  | .stopAfter t .. | .cancel t _ | .remove t _ | .isExpired t _ | .delayLeft t _ | .run t
  | .stop t | .destroy t | .attach t _ | .query t _ => t.IsKernel
  | .idle | .inspect _ | .same .. | .forge .. | .panic _ => True
  | _ => False

/-- Only a call that runs actions may give up many of them. -/
theorem Command.OnKernel.settles_eq_false {c : Command} (hc : c.OnKernel)
    (hd : c.drives = false) : c.settles = false := by
  cases c with
  | schedule t timing name a => cases timing <;> rfl
  | query t q => cases q <;> rfl
  | run | destroy => cases hd
  | idle | stopAfter | cancel | remove | isExpired | delayLeft | stop | attach | inspect | same
  | forge | panic => rfl
  | _ => exact hc.elim

/-- The action and all that it carries make single calls on kernels only. -/
def Action.OnKernel (a : Action) : Prop := a.Local ∧ a.All Command.OnKernel

/-- What a program of kernel calls puts into a kernel makes kernel calls only. -/
theorem Command.All.onKernel {c : Command} {a : Action} (h : c.All Command.OnKernel)
    (hc : c.Carries a) : a.OnKernel := by
  refine ⟨?_, h.carries hc⟩
  have hself := h.self
  cases c with
  | schedule t timing name b =>
    cases hc
    exact hself.2
  | scheduleEach | chain => exact hself.elim
  | _ => exact hc.elim

/-- The frame is part of a program of kernel calls. -/
def Frame.OnKernel : Frame → Prop
  | .body _ left | .answering _ _ left => ∀ x ∈ left, x.All Command.OnKernel
  | .running _ | .destroying _ => True
  | .clearing _ | .scenario .. => False

namespace Machine

/-- All that a machine may still carry out are single calls on kernels. -/
structure OnKernel (m : Machine) : Prop where
  stored : m.world.Holds Action.OnKernel
  waiting : ∀ f ∈ m.stack, f.OnKernel

variable {m : Machine} {w : World} {stack rest : List Frame} {id : KernelId}
  {result : Option (Except Panic Reply)} {x : Command}

/-! ### What waits -/

theorem onKernel_deliver (h : ∀ f ∈ stack, f.OnKernel) (r : Reply) :
    ∀ f ∈ (deliver ⟨w, stack, result⟩ r).stack, f.OnKernel := by
  unfold deliver
  dsimp only
  split
  · exact h
  · obtain ⟨hf, hrest⟩ := List.forall_mem_cons.1 h
    exact List.forall_mem_cons.2 ⟨hf, hrest⟩
  · exact (h _ List.mem_cons_self).elim
  · exact h

theorem onKernel_panic (p : Panic) : ∀ f ∈ (panic ⟨w, stack, result⟩ p).stack, f.OnKernel :=
  fun _ hf => (List.not_mem_nil hf).elim

theorem onKernel_startAction (h : ∀ f ∈ stack, f.OnKernel) {a : Action} (ha : a.OnKernel) :
    ∀ f ∈ (startAction ⟨w, stack, result⟩ a).stack, f.OnKernel := by
  rcases stack_startAction w stack result a with hs | ⟨hs, -⟩
  · rw [hs]
    exact List.forall_mem_cons.2 ⟨Action.all_iff.1 ha.2, h⟩
  · rw [hs]
    exact fun _ hf => (List.not_mem_nil hf).elim

theorem onKernel_start (h : ∀ f ∈ stack, f.OnKernel) (hx : x.OnKernel) :
    ∀ f ∈ (start ⟨w, stack, result⟩ x).stack, f.OnKernel := by
  cases hd : x.drives with
  | false =>
    rw [start_of_not_drives hd]
    split
    · exact onKernel_panic _
    · exact onKernel_deliver h _
  | true =>
    cases x with
    | run t =>
      unfold start
      dsimp only
      split
      · exact onKernel_panic _
      · unfold beginRun
        split
        · exact List.forall_mem_cons.2 ⟨trivial, h⟩
        · exact onKernel_deliver h _
    | destroy t =>
      unfold start
      dsimp only
      split
      · exact onKernel_panic _
      · unfold beginDestroy
        split
        · exact List.forall_mem_cons.2 ⟨trivial, h⟩
        · exact onKernel_deliver h _
    | teardown | scenario => exact hx.elim
    | _ => cases hd

/-! ### Steps -/

theorem onKernel_stepRun (h : OnKernel ⟨w, .running id :: rest, result⟩) :
    ∀ f ∈ (stepRun ⟨w, .running id :: rest, result⟩ id rest).stack, f.OnKernel := by
  have hrest := (List.forall_mem_cons.1 h.waiting).2
  have ht := runTurn_stepRun w id (.running id :: rest) rest result
  generalize stepRun ⟨w, .running id :: rest, result⟩ id rest = n at ht ⊢
  cases ht with
  | absent | ended => exact onKernel_deliver hrest _
  | skipped | halted => exact h.waiting
  | strayed => exact onKernel_panic _
  | @launched watched k _ _ _ he hq hp =>
    refine onKernel_startAction h.waiting (h.stored id watched k he _ ?_)
    have hl := (Kernel.Does.started hq).load.subset (List.mem_append_left _ List.mem_cons_self)
    rwa [hp] at hl

theorem onKernel_stepDestroy (h : OnKernel ⟨w, .destroying id :: rest, result⟩) :
    ∀ f ∈ (stepDestroy ⟨w, .destroying id :: rest, result⟩ id rest).stack, f.OnKernel := by
  have hrest := (List.forall_mem_cons.1 h.waiting).2
  have ht := destroyTurn_stepDestroy w id (.destroying id :: rest) rest result
  generalize stepDestroy ⟨w, .destroying id :: rest, result⟩ id rest = n at ht ⊢
  cases ht with
  | absent | swept => exact onKernel_deliver hrest _
  | @unwound watched k _ _ he hq =>
    refine onKernel_startAction h.waiting (h.stored id watched k he _ ?_)
    exact (Kernel.Does.unwound hq).load.subset (List.mem_append_left _ List.mem_cons_self)

/-- **A step of a program of kernel calls leaves a program of kernel calls.** -/
theorem OnKernel.step (h : m.OnKernel) : m.step.OnKernel := by
  obtain ⟨w, stack, result⟩ := m
  rcases stack with _ | ⟨f, rest⟩
  · exact h
  · obtain ⟨hf, hrest⟩ := List.forall_mem_cons.1 h.waiting
    refine ⟨holds_step h.stored fun x a hx ha => ?_, ?_⟩
    · cases f with
      | body reporting left =>
        rcases left with _ | ⟨y, left⟩
        · cases hx
        · cases hx
          exact (List.forall_mem_cons.1 hf).1.onKernel ha
      | scenario => exact hf.elim
      | _ => cases hx
    · cases f with
      | body reporting left =>
        rcases left with _ | ⟨y, left⟩
        · exact hrest
        · obtain ⟨hy, hleft⟩ := List.forall_mem_cons.1 hf
          exact onKernel_start (List.forall_mem_cons.2 ⟨hleft, hrest⟩) hy.self
      | answering => exact List.forall_mem_cons.2 ⟨hf, hrest⟩
      | running id => exact onKernel_stepRun h
      | destroying id => exact onKernel_stepDestroy h
      | clearing | scenario => exact hf.elim

theorem OnKernel.steps (h : m.OnKernel) (i : Nat) : (m.steps i).OnKernel :=
  keeps_steps OnKernel OnKernel.step h i

theorem onKernel_ofCall (hw : w.Holds Action.OnKernel) (hx : x.All Command.OnKernel) :
    (ofCall w x).OnKernel :=
  ⟨holds_start hw fun _ => hx.onKernel,
    onKernel_start (fun _ hf => (List.not_mem_nil hf).elim) hx.self⟩

end Machine

/-- So does a whole call. -/
theorem World.holds_call {w : World} {x : Command} (hw : w.Holds Action.OnKernel)
    (hx : x.All Command.OnKernel) : (w.call x).2.Holds Action.OnKernel :=
  ((Machine.onKernel_ofCall hw hx).steps _).stored

end EventSim
