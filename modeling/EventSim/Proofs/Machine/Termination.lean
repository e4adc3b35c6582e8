import EventSim.Proofs.Machine.Steps
import EventSim.Proofs.World.Weights

/-!
# Every call ends

The weight of a machine falls with every step, whatever is on its stack.  A step takes something off
a body, out of a kernel or off a plan, and what it puts on the stack in exchange is lighter: an
action weighs less than the event that carried it, and what carries a command out weighs less than
the command.

* `weight_step`: **each step makes the machine lighter**.
* `stack_run`: hence a call has ended after `Machine.run`.
-/

namespace EventSim

/-! ### Plans -/

namespace Scenario

/-- The weight of the probes of a list. -/
theorem weight_append (l l' : List Probe) : weight (l ++ l') = weight l + weight l' := by
  simp [weight]

theorem weight_filterMap_le {α : Type} {n : Nat} {f : α → Option Probe} (l : List α)
    (h : ∀ y x, f y = some x → x.command.weight + 2 ≤ n) :
    weight (l.filterMap f) ≤ l.length * n := by
  induction l with
  | nil => simp [weight]
  | cons y l ih =>
    rw [List.length_cons, Nat.succ_mul, List.filterMap_cons]
    split
    · omega
    · rename_i x hx
      have := h y x hx
      rw [weight, total_cons, ← weight]
      omega

theorem weight_map_le {α : Type} {n : Nat} {f : α → Probe} (l : List α)
    (h : ∀ y, (f y).command.weight + 2 ≤ n) : weight (l.map f) ≤ l.length * n := by
  rw [← List.filterMap_eq_map]
  refine weight_filterMap_le l fun y x hx => ?_
  cases hx
  exact h y

theorem weight_scheduled (timing : Timing) (n : Nat) (c : Command) :
    (scheduled timing n [c]).command.weight = c.weight + 4 := rfl

theorem weight_fifoTies (events : Nat) : weight (fifoTies events) ≤ 7 * events + 11 := by
  rw [fifoTies, weight_append]
  refine Nat.le_trans (Nat.add_le_add (weight_map_le (n := 7) _ fun i => ?_)
    (Nat.le_of_eq (m := 11) ?_)) ?_
  · exact Nat.le_of_eq (congrArg (· + 2) (weight_scheduled ..))
  · rfl
  · rw [List.length_range]
    omega

theorem weight_randomLoad (l : List (Nat × Random.Fate)) :
    weight (randomLoad l) ≤ 10 * l.length + 14 := by
  rw [randomLoad, weight_append, weight_append]
  refine Nat.le_trans (Nat.add_le_add (Nat.add_le_add (weight_map_le (n := 7) _ fun y => ?_)
    (weight_filterMap_le (n := 3) _ fun y x hx => ?_)) (Nat.le_of_eq (m := 14) ?_)) ?_
  · exact Nat.le_of_eq (congrArg (· + 2) (weight_scheduled ..))
  · obtain ⟨⟨d, fate⟩, i⟩ := y
    cases fate <;> cases hx <;> exact Nat.le_refl 3
  · rfl
  · rw [List.length_zipIdx]
    omega

/-- A plan weighs no more than its request. -/
theorem weight_plan (s : ScenarioId) (seed : UInt64) (scheduler : String) (events : Nat) :
    weight (plan s seed scheduler events) ≤ 16 * (events + 1) + 200 := by
  cases s with
  | fifoTies =>
    have := weight_fifoTies events
    simp only [plan]
    omega
  | randomLoad =>
    have := weight_randomLoad (Random.workload seed events)
    rw [Random.length_workload] at this
    simp only [plan]
    omega
  | _ =>
    refine Nat.le_trans (m := 200) ?_ (Nat.le_add_left ..)
    exact Nat.le_of_ble_eq_true rfl

end Scenario

/-- The frame waits for a reply. -/
def Frame.Waits : Frame → Prop
  | .answering .. | .scenario _ (.judging ..) => True
  | _ => False

namespace Machine

variable {m : Machine} {w : World} {stack rest : List Frame} {f : Frame}
  {result : Option (Except Panic Reply)}

/-- The weight of a stack. -/
def stackWeight (stack : List Frame) : Nat := total frameWeight stack

@[simp] theorem stackWeight_cons (f : Frame) (rest : List Frame) :
    stackWeight (f :: rest) = frameWeight f + stackWeight rest := rfl

theorem weight_eq (w : World) (stack : List Frame) (result : Option (Except Panic Reply)) :
    weight ⟨w, stack, result⟩ = w.weight + stackWeight stack := rfl

/-! ### Ends and starts of calls -/

theorem weight_panic (p : Panic) : (panic ⟨w, stack, result⟩ p).weight = w.weight := rfl

theorem weight_deliver (r : Reply) :
    (deliver ⟨w, stack, result⟩ r).weight ≤ w.weight + stackWeight stack := by
  have hw : (deliver ⟨w, stack, result⟩ r).world.weight = w.weight :=
    World.weight_aside (aside_deliver r)
  have hs : stackWeight (deliver ⟨w, stack, result⟩ r).stack ≤ stackWeight stack := by
    unfold deliver
    dsimp only
    split
    · exact Nat.le_refl _
    · simp only [stackWeight_cons, frameWeight]
      omega
    · split <;> simp only [stackWeight_cons, frameWeight] <;> omega
    · exact Nat.le_refl _
  show _ + stackWeight _ ≤ _
  omega

/-- A reply that is waited for makes the machine lighter. -/
theorem weight_deliver_lt (hf : f.Waits) (r : Reply) :
    (deliver ⟨w, f :: rest, result⟩ r).weight < w.weight + stackWeight (f :: rest) := by
  have hw : (deliver ⟨w, f :: rest, result⟩ r).world.weight = w.weight :=
    World.weight_aside (aside_deliver r)
  have hs : stackWeight (deliver ⟨w, f :: rest, result⟩ r).stack < stackWeight (f :: rest) := by
    cases f with
    | answering =>
      simp only [deliver, stackWeight_cons, frameWeight]
      omega
    | scenario run stage =>
      cases stage with
      | judging =>
        unfold deliver
        dsimp only
        split <;> simp only [stackWeight_cons, frameWeight] <;> omega
      | _ => exact hf.elim
    | _ => exact hf.elim
  show _ + stackWeight _ < _
  omega

theorem two_le_of_waits (hf : f.Waits) : 2 ≤ frameWeight f := by
  cases f with
  | answering => simp [frameWeight]
  | scenario run stage =>
    cases stage with
    | judging =>
      simp only [frameWeight]
      omega
    | _ => exact hf.elim
  | _ => exact hf.elim

/-- An action that starts weighs what its body weighs. -/
theorem weight_startAction (a : Action) :
    (startAction ⟨w, stack, result⟩ a).weight ≤ w.weight + a.weight + stackWeight stack := by
  have hw : (startAction ⟨w, stack, result⟩ a).world.weight ≤ w.weight :=
    World.weight_le_of_evolves ((evolves_startAction a).mono fun _ => World.Building.light)
  have hs : stackWeight (startAction ⟨w, stack, result⟩ a).stack ≤
      a.weight + stackWeight stack := by
    have hbody :
        stackWeight (.body a.reporting a.body :: stack) = a.weight + stackWeight stack := by
      rw [stackWeight_cons, frameWeight, a.weight_eq]
    unfold startAction
    dsimp only
    split
    · exact Nat.le_of_eq hbody
    · split
      · exact Nat.zero_le _
      · split
        · exact Nat.zero_le _
        · exact Nat.le_of_eq hbody
  show _ + stackWeight _ ≤ _
  omega

theorem weight_beginRun (id : KernelId) :
    (beginRun ⟨w, stack, result⟩ id).weight ≤ w.weight + 1 + stackWeight stack := by
  unfold beginRun
  split
  · rename_i watched k he
    have := World.weight_did he (.began k)
    simp only [Deed.taken, Deed.handed, weightOf_nil] at this
    rw [weight_eq, stackWeight_cons, frameWeight]
    dsimp only at this ⊢
    omega
  · refine Nat.le_trans (weight_deliver .done) ?_
    omega

theorem weight_beginDestroy (id : KernelId) :
    (beginDestroy ⟨w, stack, result⟩ id).weight ≤ w.weight + 1 + stackWeight stack := by
  unfold beginDestroy
  split
  · rename_i watched k _
    have hw : (if watched = true then w.report "destroy" else w).weight = w.weight := by
      split <;> rfl
    rw [weight_eq, stackWeight_cons, frameWeight, hw]
    dsimp only
    omega
  · refine Nat.le_trans (weight_deliver .done) ?_
    omega

theorem weight_beginTeardown :
    (beginTeardown ⟨w, stack, result⟩).weight ≤ w.weight + 2 + stackWeight stack := by
  unfold beginTeardown
  split
  · refine Nat.le_trans (weight_deliver .done) ?_
    omega
  · rename_i id hs
    refine Nat.le_trans (weight_beginDestroy id) ?_
    rw [stackWeight_cons, frameWeight]
    show w.weight + 1 + _ ≤ _
    dsimp only
    omega

/-- **A command that somebody waits for weighs more than all that it starts.** -/
theorem weight_start (hf : f.Waits) (c : Command) :
    (start ⟨w, f :: rest, result⟩ c).weight + 2 ≤
      w.weight + c.weight + stackWeight (f :: rest) := by
  have htwo := two_le_of_waits hf
  have hstack : stackWeight (f :: rest) = frameWeight f + stackWeight rest := stackWeight_cons _ _
  unfold start
  split
  · split
    · rw [weight_panic, Command.weight]
      omega
    · rename_i id v hr
      have hv : v.weight ≤ w.weight := World.weight_reach hr
      refine Nat.le_trans (Nat.add_le_add_right (weight_beginRun id) 2) ?_
      rw [Command.weight]
      dsimp only
      omega
  · split
    · rw [weight_panic, Command.weight]
      omega
    · rename_i id v hr
      have hv : v.weight ≤ w.weight := World.weight_reach hr
      refine Nat.le_trans (Nat.add_le_add_right (weight_beginDestroy id) 2) ?_
      rw [Command.weight]
      dsimp only
      omega
  · refine Nat.le_trans (Nat.add_le_add_right weight_beginTeardown 2) ?_
    rw [Command.weight]
    omega
  · rename_i request
    rw [Command.weight]
    split
    · refine Nat.le_trans (Nat.add_le_add_right (weight_deliver _) 2) ?_
      omega
    · rename_i run hr
      refine Nat.le_trans (Nat.add_le_add_right weight_beginTeardown 2) ?_
      have hrun : run.events = request.eventCount := by
        obtain ⟨s, -, rfl⟩ := Option.map_eq_some_iff.1 hr
        rfl
      rw [stackWeight_cons, frameWeight, hrun, ScenarioRequest.weight]
      dsimp only
      omega
  · have hp := World.weight_perform w c
    split
    · rename_i v hc
      rw [hc] at hp
      rw [weight_panic]
      dsimp only at hp ⊢
      omega
    · rename_i r v hc
      rw [hc] at hp
      refine Nat.le_trans (Nat.add_le_add_right (weight_deliver_lt hf r) 1) ?_
      dsimp only at hp
      omega

/-! ### Steps -/

theorem weight_releaseAll (l : List Action) : (w.releaseAll l).weight = w.weight :=
  World.weight_aside (World.aside_releaseAll w l)

theorem weight_stepRun (id : KernelId) :
    (stepRun ⟨w, .running id :: rest, result⟩ id rest).weight <
      w.weight + stackWeight (.running id :: rest) := by
  rw [stackWeight_cons, frameWeight]
  unfold stepRun
  split
  · rename_i watched k he
    dsimp only at he ⊢
    split
    · have h := World.weight_did he (.ended k)
      simp only [Deed.taken, Deed.handed, weightOf_nil] at h
      refine Nat.lt_of_le_of_lt (weight_deliver .done) ?_
      omega
    · rename_i payload k' hq
      have h := World.weight_did he (.skipped hq)
      have := payload.weight_pos
      simp only [Deed.taken, Deed.handed, weightOf_cons, weightOf_nil] at h
      rw [weight_eq, stackWeight_cons, frameWeight, weight_releaseAll]
      omega
    · rename_i payload k' hq
      have h := World.weight_did he (.strayed hq)
      simp only [Deed.taken, Deed.handed, weightOf_cons, weightOf_nil] at h
      rw [weight_panic, weight_releaseAll]
      omega
    · rename_i e k' hq
      have h := World.weight_did he (.started hq)
      simp only [Deed.taken, Deed.handed, weightOf_cons, weightOf_nil] at h
      split
      · rename_i hp
        rw [hp, Payload.weight] at h
        have he' := World.engine?_setEngine_self he (.builtIn watched k')
        have h' := World.weight_did he' (.stopped k')
        rw [World.setEngine_setEngine] at h'
        simp only [Deed.taken, Deed.handed, weightOf_nil] at h'
        rw [weight_eq, stackWeight_cons, frameWeight]
        omega
      · rename_i a hp
        rw [hp, Payload.weight] at h
        refine Nat.lt_of_le_of_lt (weight_startAction a) ?_
        rw [stackWeight_cons, frameWeight]
        omega
  · refine Nat.lt_of_le_of_lt (weight_deliver .done) ?_
    dsimp only
    omega

theorem weight_stepDestroy (id : KernelId) :
    (stepDestroy ⟨w, .destroying id :: rest, result⟩ id rest).weight <
      w.weight + stackWeight (.destroying id :: rest) := by
  rw [stackWeight_cons, frameWeight]
  unfold stepDestroy
  split
  · rename_i watched k he
    dsimp only at he ⊢
    split
    · rename_i e k' hq
      have h := World.weight_did he (.unwound hq)
      simp only [Deed.taken, Deed.handed, weightOf_cons, weightOf_nil, Payload.weight] at h
      refine Nat.lt_of_le_of_lt (weight_startAction e.action) ?_
      rw [stackWeight_cons, frameWeight]
      omega
    · rename_i hq
      have h := World.weight_did he (.swept k (Kernel.popTeardown_eq_none.1 hq))
      simp only [Deed.taken, Deed.handed, weightOf_nil] at h
      refine Nat.lt_of_le_of_lt (weight_deliver .done) ?_
      rw [weight_releaseAll]
      omega
  · refine Nat.lt_of_le_of_lt (weight_deliver .done) ?_
    dsimp only
    omega

theorem weight_stepClear (found : KernelId) :
    (stepClear ⟨w, .clearing found :: rest, result⟩ rest).weight <
      w.weight + stackWeight (.clearing found :: rest) := by
  rw [stackWeight_cons, frameWeight]
  refine Nat.lt_of_le_of_lt (weight_deliver .done) ?_
  dsimp only
  split
  · omega
  · rename_i id hs
    have h := World.weight_le_of_evolves
      ((World.evolves_abandon { w with slot := none } id).mono fun x hx => by
        rcases hx with rfl | rfl
        · trivial
        · rfl)
    have hw : World.weight { w with slot := none } = w.weight := rfl
    omega

theorem weight_stepOpened (run : ScenarioRun) :
    (stepOpened ⟨w, .scenario run .opened :: rest, result⟩ run rest).weight <
      w.weight + stackWeight (.scenario run .opened :: rest) := by
  have hplan : Scenario.weight run.plan ≤ 16 * (run.events + 1) + 200 :=
    Scenario.weight_plan run.scenario run.seed run.scheduler run.events
  rw [stackWeight_cons, frameWeight]
  unfold stepOpened
  split
  · rw [weight_panic]
    omega
  · have h := World.weight_aside (World.aside_chooseScheduler w run.scheduler)
    dsimp only
    split <;> rename_i hc <;> rw [hc] at h
    · rw [weight_panic]
      dsimp only at h ⊢
      omega
    · rw [weight_eq, stackWeight_cons, frameWeight]
      dsimp only at h ⊢
      omega
    · rename_i v _
      have hv : World.weight { v with observed := [] } = v.weight := rfl
      rw [weight_eq, stackWeight_cons, frameWeight, hv]
      dsimp only at h ⊢
      omega

theorem weight_stepRestore (run : ScenarioRun) (saved : Config)
    (verdict : Except String (Nat × Time)) :
    (stepRestore ⟨w, .scenario run (.restoring saved verdict) :: rest, result⟩ run saved verdict
      rest).weight < w.weight + stackWeight (.scenario run (.restoring saved verdict) :: rest) := by
  have h := World.weight_aside (World.aside_apply w saved)
  rw [stackWeight_cons, frameWeight]
  unfold stepRestore
  dsimp only
  split <;> rename_i hc <;> rw [hc] at h <;> dsimp only at h
  · rw [weight_panic]
    omega
  · rename_i v
    refine Nat.lt_of_le_of_lt (weight_deliver _) ?_
    have hv : v.forgetInjected.weight = v.weight := rfl
    rw [hv]
    omega

theorem weight_stepScenario (run : ScenarioRun) (stage : ScenarioStage) :
    (stepScenario ⟨w, .scenario run stage :: rest, result⟩ run stage rest).weight <
      w.weight + stackWeight (.scenario run stage :: rest) := by
  cases stage with
  | opened => exact weight_stepOpened run
  | probing saved left replies =>
    cases left with
    | nil =>
      rw [stepScenario, weight_eq, stackWeight_cons, stackWeight_cons, frameWeight, frameWeight]
      dsimp only
      omega
    | cons probe left =>
      rw [stepScenario]
      have hwaits : (Frame.scenario run (.judging saved probe left replies)).Waits := trivial
      refine Nat.lt_of_add_lt_add_right (Nat.lt_of_le_of_lt (weight_start hwaits probe.command) ?_)
      simp only [stackWeight_cons, frameWeight, Scenario.weight, total_cons]
      omega
  | judging saved probe left replies =>
    rw [stepScenario, weight_eq, stackWeight_cons, stackWeight_cons, frameWeight, frameWeight]
    dsimp only
    omega
  | judged saved verdict =>
    rw [stepScenario]
    refine Nat.lt_of_le_of_lt weight_beginTeardown ?_
    rw [stackWeight_cons, stackWeight_cons, frameWeight, frameWeight]
    dsimp only
    omega
  | restoring saved verdict => exact weight_stepRestore run saved verdict

theorem weight_step_cons (f : Frame) (rest : List Frame) :
    (step ⟨w, f :: rest, result⟩).weight < weight ⟨w, f :: rest, result⟩ := by
  show _ < w.weight + stackWeight (f :: rest)
  cases f with
  | body reporting left =>
    cases left with
    | nil =>
      show w.weight + stackWeight rest < _
      rw [stackWeight_cons, frameWeight]
      omega
    | cons c left =>
      rw [step]
      dsimp only
      generalize hv : (if (reporting && c.settles) = true then w.log (.began c.name) else w) = v
      have hw : v.weight = w.weight := by
        rw [← hv]
        split <;> rfl
      have hwaits : (Frame.answering reporting c.name left).Waits := trivial
      refine Nat.lt_of_add_lt_add_right (Nat.lt_of_le_of_lt (weight_start hwaits c) ?_)
      simp only [stackWeight_cons, frameWeight, bodyWeight]
      omega
  | answering reporting command left =>
    show w.weight + stackWeight (.body reporting left :: rest) < _
    rw [stackWeight_cons, stackWeight_cons, frameWeight, frameWeight]
    omega
  | running id => exact weight_stepRun id
  | destroying id => exact weight_stepDestroy id
  | clearing found => exact weight_stepClear found
  | scenario run stage => exact weight_stepScenario run stage

/-- **Each step makes the machine lighter.** -/
theorem weight_step (h : m.stack ≠ []) : m.step.weight < m.weight := by
  obtain ⟨w, stack, result⟩ := m
  cases stack with
  | nil => exact absurd rfl h
  | cons f rest => exact weight_step_cons f rest

/-! ### Whole calls -/

theorem stack_of_weight (h : m.weight = 0) : m.stack = [] := by
  by_contra hne
  have := weight_step hne
  omega

theorem steps_of_stack (h : m.stack = []) (n : Nat) : m.steps n = m := by
  cases n <;> simp [steps, h]

theorem steps_of_stack_ne (h : m.stack ≠ []) (n : Nat) : m.steps (n + 1) = m.step.steps n := by
  rw [steps, List.isEmpty_eq_false_iff.2 h, if_neg Bool.false_ne_true]

/-- A machine whose call has ended stands still. -/
theorem step_of_stack (h : m.stack = []) : m.step = m := by rw [step, h]

/-- The last of some steps. -/
theorem steps_succ (m : Machine) (n : Nat) : m.steps (n + 1) = (m.steps n).step := by
  induction n generalizing m with
  | zero =>
    by_cases h : m.stack = []
    · rw [steps_of_stack h, steps_of_stack h, step_of_stack h]
    · rw [steps_of_stack_ne h]
      rfl
  | succ n ih =>
    by_cases h : m.stack = []
    · rw [steps_of_stack h, steps_of_stack h, step_of_stack h]
    · rw [steps_of_stack_ne h, steps_of_stack_ne h, ih]

/-- As many steps as the machine weighs are enough. -/
theorem stack_steps {n : Nat} (h : m.weight ≤ n) : (m.steps n).stack = [] := by
  induction n generalizing m with
  | zero => exact stack_of_weight (Nat.le_zero.1 h)
  | succ n ih =>
    by_cases hm : m.stack = []
    · rw [steps_of_stack hm]
      exact hm
    · have := weight_step hm
      rw [steps_of_stack_ne hm]
      exact ih (by omega)

/-- **Every call ends.** -/
theorem stack_run (m : Machine) : m.run.stack = [] := stack_steps (Nat.le_refl _)

end Machine

end EventSim
