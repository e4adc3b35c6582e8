import EventSim.Proofs.Backends.Worlds
import EventSim.Proofs.Machine.Steps

/-!
# Machines whose worlds mirror one another

The machine on the right carries out the same program without the calls that attach schedulers.  It
stands still while the one on the left attaches a scheduler, and takes every other step along with
it (`Mirrors.step`).  Only the step in which a destruction gives the stored actions up is told in
an order of its own in each of them (`Mirrors.step_of_sweeps`).
-/

namespace EventSim

/-- The frame without the commands that attach schedulers. -/
def Frame.unattached : Frame → Frame
  | .body reporting left => .body reporting (unattachedAll left)
  | .answering reporting command left => .answering reporting command (unattachedAll left)
  | f => f

/-- The frame is part of a program of kernel calls. -/
def Frame.OfKernels (known : Nat → Prop) : Frame → Prop
  | .body _ left | .answering _ _ left => ∀ x ∈ left, x.All (Command.OfKernels known)
  | .running _ | .destroying _ => True
  | .clearing _ | .scenario .. => False

namespace Machine

/-- The next step starts a command that attaches a scheduler. -/
def attaches (m : Machine) : Bool :=
  match m.stack with
  | .body _ (x :: _) :: _ => x.attaches
  | _ => false

/-- The next step ends the destruction of a kernel. -/
def sweeps (m : Machine) : Bool :=
  match m.stack with
  | .destroying id :: _ =>
    match m.world.engine? id with
    | some (.builtIn _ k) => k.teardowns.isEmpty
    | _ => false
  | _ => false

/-- The worlds mirror one another, and what waits on the stack of the one is what waits on the stack
of the other, apart from the calls that attach schedulers. -/
inductive Mirrors (known : Nat → Prop) (b c : List Entry) : Machine → Machine → Prop
  | mk {w v : World} {s : List Frame} {result : Option (Except Panic Reply)} :
      w.Mirrors known b c v → (∀ f ∈ s, f.OfKernels known) →
      Mirrors known b c ⟨w, s, result⟩ ⟨v, s.map Frame.unattached, result⟩

variable {known : Nat → Prop} {b c : List Entry} {w v : World} {id : KernelId}
  {s rest : List Frame} {result : Option (Except Panic Reply)}

namespace Mirrors

/-! ### Ends of calls -/

theorem panic (m : w.Mirrors known b c v) (p : Panic) :
    Mirrors known b c (Machine.panic ⟨w, s, result⟩ p)
      (Machine.panic ⟨v, s.map Frame.unattached, result⟩ p) :=
  .mk (s := []) m.forgetInjected fun f hf => by cases hf

theorem deliver (m : w.Mirrors known b c v) (hs : ∀ f ∈ s, f.OfKernels known) (r : Reply) :
    Mirrors known b c (Machine.deliver ⟨w, s, result⟩ r)
      (Machine.deliver ⟨v, s.map Frame.unattached, result⟩ r) := by
  cases s with
  | nil => exact .mk (s := []) m hs
  | cons f rest =>
    have hf := List.forall_mem_cons.1 hs
    cases f with
    | answering reporting command left =>
      refine .mk (s := .body reporting left :: rest) ?_ (List.forall_mem_cons.2 hf)
      split
      · exact m.log _
      · exact m
    | body | running | destroying => exact .mk m hs
    | clearing | scenario => exact hf.1.elim

/-- A command that runs nothing has ended. -/
theorem conclude {x y : Command} (h : World.Ends known b c (w.perform x) (v.perform y))
    (hs : ∀ f ∈ s, f.OfKernels known) :
    Mirrors known b c
      (match w.perform x with
        | (.error p, w) => Machine.panic ⟨w, s, result⟩ p
        | (.ok r, w) => Machine.deliver ⟨w, s, result⟩ r)
      (match v.perform y with
        | (.error p, v) => Machine.panic ⟨v, s.map Frame.unattached, result⟩ p
        | (.ok r, v) => Machine.deliver ⟨v, s.map Frame.unattached, result⟩ r) := by
  generalize w.perform x = r at h
  generalize v.perform y = r' at h
  obtain ⟨reply, w'⟩ := r
  obtain ⟨reply', v'⟩ := r'
  obtain ⟨hr, hm⟩ := h
  cases hr
  cases reply with
  | error p => exact panic hm p
  | ok r => exact deliver hm hs r

/-! ### Starts of calls -/

theorem startAction (m : w.Mirrors known b c v) (hs : ∀ f ∈ s, f.OfKernels known) {a : Action}
    (ha : a.OfKernels known) :
    Mirrors known b c (Machine.startAction ⟨w, s, result⟩ a)
      (Machine.startAction ⟨v, s.map Frame.unattached, result⟩ a.unattached) := by
  have hbody {w v : World} (m : w.Mirrors known b c v) : Mirrors known b c
      ⟨w, .body a.reporting a.body :: s, result⟩
      ⟨v, .body a.unattached.reporting a.unattached.body :: s.map Frame.unattached, result⟩ := by
    rw [Action.reporting_unattached, Action.body_unattached]
    exact .mk (s := .body a.reporting a.body :: s) m
      (List.forall_mem_cons.2 ⟨Action.all_iff.1 ha.2, hs⟩)
  unfold Machine.startAction
  dsimp only
  rw [Action.tag_unattached, Action.target_unattached]
  split
  · exact hbody m
  · rename_i tag htag
    have ht : a.target.IsKernel := ha.1.resolve_left fun h => by
      rw [h] at htag
      cases htag
    rcases m.nowOf ht with ⟨p, hw, hv⟩ | ⟨now, hw, hv⟩
    · rw [hw, hv]
      exact panic m p
    · rw [hw, hv]
      dsimp only
      rcases m.contextOf ht with ⟨p, hw, hv⟩ | ⟨context, hw, hv⟩
      · rw [hw, hv]
        exact panic m p
      · rw [hw, hv]
        exact hbody (m.log _)

theorem beginRun (m : w.Mirrors known b c v) (hs : ∀ f ∈ s, f.OfKernels known)
    (id : KernelId) :
    Mirrors known b c (Machine.beginRun ⟨w, s, result⟩ id)
      (Machine.beginRun ⟨v, s.map Frame.unattached, result⟩ id) := by
  unfold Machine.beginRun
  dsimp only
  rcases m.engine? id with ⟨hw, hv⟩ | ⟨k, l, hw, hv, hk⟩
  · rw [hw, hv]
    exact deliver m hs .done
  · rw [hw, hv]
    exact .mk (s := .running id :: s) (m.setEngine id hk.beginRun)
      (List.forall_mem_cons.2 ⟨trivial, hs⟩)

theorem beginDestroy (m : w.Mirrors known b c v) (hs : ∀ f ∈ s, f.OfKernels known)
    (id : KernelId) :
    Mirrors known b c (Machine.beginDestroy ⟨w, s, result⟩ id)
      (Machine.beginDestroy ⟨v, s.map Frame.unattached, result⟩ id) := by
  unfold Machine.beginDestroy
  dsimp only
  rcases m.engine? id with ⟨hw, hv⟩ | ⟨k, l, hw, hv, hk⟩
  · rw [hw, hv]
    exact deliver m hs .done
  · rw [hw, hv]
    exact .mk (s := .destroying id :: s) m (List.forall_mem_cons.2 ⟨trivial, hs⟩)

/-- **A command that attaches nothing starts alike.** -/
theorem start (m : w.Mirrors known b c v) (hs : ∀ f ∈ s, f.OfKernels known) {x : Command}
    (hx : x.All (Command.OfKernels known)) (ha : x.attaches = false) :
    Mirrors known b c (Machine.start ⟨w, s, result⟩ x)
      (Machine.start ⟨v, s.map Frame.unattached, result⟩ x.unattached) := by
  cases x with
  | run t =>
    have hu : (Command.run t).unattached = .run t := rfl
    rw [hu]
    unfold Machine.start
    dsimp only
    rcases m.reach hx.self with ⟨p, hw, hv⟩ | ⟨id, hw, hv⟩
    · rw [hw, hv]
      exact panic m p
    · rw [hw, hv]
      exact beginRun m hs id
  | destroy t =>
    have hu : (Command.destroy t).unattached = .destroy t := rfl
    rw [hu]
    unfold Machine.start
    dsimp only
    rcases m.reach hx.self with ⟨p, hw, hv⟩ | ⟨id, hw, hv⟩
    · rw [hw, hv]
      exact panic m p
    · rw [hw, hv]
      exact beginDestroy m hs id
  | teardown | scenario => exact hx.self.elim
  | _ => exact conclude (.perform m hx ha) hs

/-! ### Steps -/

theorem stepRun (m : w.Mirrors known b c v) (hs : ∀ f ∈ rest, f.OfKernels known)
    (id : KernelId) :
    Mirrors known b c (Machine.stepRun ⟨w, .running id :: rest, result⟩ id rest)
      (Machine.stepRun ⟨v, .running id :: rest.map Frame.unattached, result⟩ id
        (rest.map Frame.unattached)) := by
  have hs' : ∀ f ∈ Frame.running id :: rest, f.OfKernels known :=
    List.forall_mem_cons.2 ⟨trivial, hs⟩
  unfold Machine.stepRun
  dsimp only
  rcases m.engine? id with ⟨hw, hv⟩ | ⟨k, l, hw, hv, hk⟩
  · rw [hw, hv]
    exact deliver m hs .done
  · rw [hw, hv]
    dsimp only
    have hd := hk.dequeue
    generalize k.dequeue = d at hd
    generalize l.dequeue = d' at hd
    cases hd with
    | idle => exact deliver (m.setEngine id hk.endRun) hs .done
    | skipped p hk' =>
      dsimp only
      rw [Payload.action?_map, Option.toList_map]
      exact .mk (s := .running id :: rest) ((m.setEngine id hk').releaseAll _) hs'
    | past p hk' =>
      dsimp only
      rw [Payload.action?_map, Option.toList_map]
      exact panic (s := .running id :: rest) ((m.setEngine id hk').releaseAll _) _
    | @started k' l' e ha hk' =>
      dsimp only [Event.map]
      cases hp : e.payload with
      | halt => exact .mk (s := .running id :: rest) (m.setEngine id hk'.stop) hs'
      | act a => exact startAction (s := .running id :: rest) (m.setEngine id hk') hs' (ha a hp)

theorem stepDestroy (m : w.Mirrors known b c v) (hs : ∀ f ∈ rest, f.OfKernels known)
    (id : KernelId)
    (hsweep : ∀ watched k, w.engine? id = some (.builtIn watched k) → k.teardowns ≠ []) :
    Mirrors known b c (Machine.stepDestroy ⟨w, .destroying id :: rest, result⟩ id rest)
      (Machine.stepDestroy ⟨v, .destroying id :: rest.map Frame.unattached, result⟩ id
        (rest.map Frame.unattached)) := by
  have hs' : ∀ f ∈ Frame.destroying id :: rest, f.OfKernels known :=
    List.forall_mem_cons.2 ⟨trivial, hs⟩
  unfold Machine.stepDestroy
  dsimp only
  rcases m.engine? id with ⟨hw, hv⟩ | ⟨k, l, hw, hv, hk⟩
  · rw [hw, hv]
    exact deliver m hs .done
  · cases hp : k.popTeardown with
    | none => exact absurd (Kernel.popTeardown_eq_none.1 hp) (hsweep false k hw)
    | some r =>
      obtain ⟨e, k'⟩ := r
      obtain ⟨ha, l', hp', hk'⟩ := hk.popTeardown hp
      rw [hw, hv]
      dsimp only
      rw [hp, hp']
      exact startAction (s := .destroying id :: rest) (m.setEngine id hk') hs' ha

/-- The end of a destruction: the same actions are given up, in an order that the schedulers
choose. -/
theorem stepDestroy_of_sweeps (m : w.Mirrors known b c v) (hs : ∀ f ∈ rest, f.OfKernels known)
    {watched : Bool} {k : Kernel Action} (hw : w.engine? id = some (.builtIn watched k))
    (ht : k.teardowns = []) :
    ∃ l l' : List Action, l'.Perm (l.map Action.unattached) ∧
      Mirrors known (World.releases l ++ w.journal) (World.releases l' ++ v.journal)
        (Machine.stepDestroy ⟨w, .destroying id :: rest, result⟩ id rest)
        (Machine.stepDestroy ⟨v, .destroying id :: rest.map Frame.unattached, result⟩ id
          (rest.map Frame.unattached)) := by
  rcases m.engine? id with ⟨hnone, -⟩ | ⟨k', l, hw', hv, hk⟩
  · rw [hw] at hnone
    cases hnone
  · rw [hw] at hw'
    cases hw'
    have hp := Kernel.popTeardown_eq_none.2 ht
    obtain ⟨hperm, hk'⟩ := hk.sweep
    refine ⟨k.sweep.1, l.sweep.1, hperm, ?_⟩
    unfold Machine.stepDestroy
    dsimp only
    rw [hw, hv]
    dsimp only
    rw [hp, hk.popTeardown_none hp]
    exact deliver ((m.setEngine id hk').release_apart k.sweep.1 l.sweep.1) hs .done

variable {m n : Machine}

/-- **While one machine attaches a scheduler, the other one stands still.** -/
theorem step_attaches (h : Mirrors known b c m n) (ha : m.attaches = true) :
    Mirrors known m.step.world.journal n.world.journal m.step n := by
  obtain ⟨hm, hs⟩ := h
  rename_i w v s result
  rcases s with _ | ⟨f, rest⟩
  · cases ha
  · have hf := List.forall_mem_cons.1 hs
    rcases f with ⟨reporting, left⟩ | _ | _ | _ | _ | _
    · rcases left with _ | ⟨x, left⟩
      · cases ha
      · have hx : x.attaches = true := ha
        cases x with
        | attach t backend =>
          have hleft := List.forall_mem_cons.1 hf.1
          obtain ⟨w', hw', hm'⟩ := hm.attach hleft.1.self
          have hs' : ∀ f ∈ Frame.body reporting left :: rest, f.OfKernels known :=
            List.forall_mem_cons.2 ⟨hleft.2, hf.2⟩
          have hstep :
              Machine.step ⟨w, .body reporting (.attach t backend :: left) :: rest, result⟩ =
                ⟨if reporting then w'.log (.did "set_scheduler" .done) else w',
                  .body reporting left :: rest, result⟩ := by
            have hset : (Command.attach t backend).settles = false := rfl
            rw [Machine.step]
            dsimp only
            rw [hset, Bool.and_false, if_neg Bool.false_ne_true]
            unfold Machine.start
            dsimp only
            rw [hw']
            rfl
          rw [hstep]
          refine .mk (s := .body reporting left :: rest) ?_ hs'
          dsimp only
          split
          · exact hm'.log_apart _
          · exact hm'.rebase
        | _ => cases hx
    all_goals cases ha

/-- **All other steps are taken together.** -/
theorem step (h : Mirrors known b c m n) (hne : m.stack ≠ []) (ha : m.attaches = false)
    (hw : m.sweeps = false) : Mirrors known b c m.step n.step := by
  obtain ⟨hm, hs⟩ := h
  rename_i w v s result
  rcases s with _ | ⟨f, rest⟩
  · exact absurd rfl hne
  · have hf := List.forall_mem_cons.1 hs
    cases f with
    | body reporting left =>
      rcases left with _ | ⟨x, left⟩
      · exact .mk hm hf.2
      · have hx : x.attaches = false := ha
        have hleft := List.forall_mem_cons.1 hf.1
        have hs' : ∀ f ∈ Frame.answering reporting x.name left :: rest, f.OfKernels known :=
          List.forall_mem_cons.2 ⟨hleft.2, hf.2⟩
        have hbody : unattachedAll (x :: left) = x.unattached :: unattachedAll left := by
          rw [unattachedAll, hx, if_neg Bool.false_ne_true]
        rw [List.map_cons, Frame.unattached, hbody, Machine.step, Machine.step]
        dsimp only
        rw [Command.settles_unattached, Command.name_unattached]
        refine start (s := .answering reporting x.name left :: rest) ?_ hs' hleft.1 hx
        split
        · exact hm.log _
        · exact hm
    | answering reporting command left =>
      exact .mk (s := .body reporting left :: rest) hm (List.forall_mem_cons.2 hf)
    | running id => exact stepRun hm hf.2 id
    | destroying id =>
      refine stepDestroy hm hf.2 id fun watched k hk ht => ?_
      simp [sweeps, hk, ht] at hw
    | clearing | scenario => exact hf.1.elim

theorem step_of_sweeps (h : Mirrors known b c m n) (hw : m.sweeps = true) :
    ∃ l l' : List Action, l'.Perm (l.map Action.unattached) ∧
      Mirrors known (World.releases l ++ m.world.journal) (World.releases l' ++ n.world.journal)
        m.step n.step := by
  obtain ⟨hm, hs⟩ := h
  rename_i w v s result
  unfold sweeps at hw
  split at hw
  · rename_i id rest hstack
    split at hw
    · rename_i watched k hk
      cases hstack
      exact stepDestroy_of_sweeps hm (List.forall_mem_cons.1 hs).2 hk (List.isEmpty_iff.1 hw)
    · cases hw
  · cases hw

/-- Both are about to end the destruction of a kernel, or neither. -/
theorem sweeps_eq (h : Mirrors known b c m n) : n.sweeps = m.sweeps := by
  obtain ⟨hm, hs⟩ := h
  rename_i w v s result
  rcases s with _ | ⟨f, rest⟩
  · rfl
  · cases f with
    | destroying id =>
      simp only [sweeps, List.map_cons, Frame.unattached]
      rcases hm.engine? id with ⟨hw, hv⟩ | ⟨k, l, hw, hv, hk⟩
      · rw [hw, hv]
      · rw [hw, hv]
        cases hk
        simp [Kernel.mirror]
    | _ => rfl

/-- The machine on the right never attaches anything. -/
theorem attaches_eq_false (h : Mirrors known b c m n) : n.attaches = false := by
  obtain ⟨hm, hs⟩ := h
  rename_i w v s result
  rcases s with _ | ⟨f, rest⟩
  · rfl
  · cases f with
    | body reporting left =>
      simp only [attaches, List.map_cons, Frame.unattached]
      cases hleft : unattachedAll left with
      | nil => rfl
      | cons x l =>
        refine attaches_of_mem_unattachedAll (l := left) ?_
        rw [hleft]
        exact List.mem_cons_self
    | _ => rfl

end Mirrors

end Machine

end EventSim
