import EventSim.Proofs.Machine.Calls
import EventSim.Proofs.Machine.History
import EventSim.Proofs.World.Reserves

/-!
# How many events are dequeued

The steps of a machine are paid for twice over.  The frames on the stack pay for the timed
scheduling calls that are made: `callsLeft_step` says that **what is left to be carried out loses
every call that a step makes** and grows only by the body of an event that starts.  The reserve of
the world pays for the events that are dequeued and for the bodies that start: `pays_reserve` says
that **it loses all of them in every step** and grows only by the calls that are made.

So the two together lose what is dequeued, `Pays.step`, and in any number of steps no more is
dequeued than they had at the start, `Pays.steps`.  Whatever number pays in the place of the reserve
gives a bound in the same way.
-/

namespace EventSim

/-- The timed scheduling calls that occur in what a frame may still carry out. -/
def Frame.timedCalls : Frame → Nat
  | .body _ left | .answering _ _ left => total Command.timedCalls left
  | .scenario run .opened => run.timedCalls
  | .scenario _ (.probing _ left _) | .scenario _ (.judging _ _ left _) =>
    total (fun x => x.command.timedCalls) left
  | _ => 0

/-- The timed scheduling calls of a command that are made when it starts. -/
def Command.callsAtOnce (c : Command) : Nat := if c.drives then 0 else c.timedCalls

namespace Machine

variable {m : Machine} {w : World} {f : Frame} {stack rest : List Frame}
  {result : Option (Except Panic Reply)} {id : KernelId} {c : Command}

/-- The timed scheduling calls that occur in what the frames of a stack may still carry out. -/
def callsLeft (stack : List Frame) : Nat := total Frame.timedCalls stack

/-- The number of events that the next step dequeues from the kernels that count. -/
def dequeues (counts : KernelId → Bool) (m : Machine) : Nat :=
  (m.turn? .step).elim 0 fun p => (counts p.1).toNat * p.2.dequeued

/-- The number of events that the next `n` steps dequeue from the kernels that count. -/
def dequeued (counts : KernelId → Bool) (m : Machine) (n : Nat) : Nat :=
  ∑ i ∈ Finset.range n, (m.steps i).dequeues counts

/-- The timed scheduling calls that occur in the body of the event that starts with the next
step. -/
def callsStarted (m : Machine) : Nat := (m.turn? .step).elim 0 fun p => p.2.timedCalls

/-- The timed scheduling calls that are made in the next step. -/
def callsMade (m : Machine) : Nat := (m.onset? .step).elim 0 fun p => p.2.callsAtOnce

/-! ### What stays to be carried out -/

theorem callsLeft_deliver (r : Reply) :
    callsLeft (deliver ⟨w, stack, result⟩ r).stack ≤ callsLeft stack := by
  unfold deliver
  dsimp only
  split
  · exact Nat.le_refl _
  · exact Nat.le_refl _
  · split
    · exact Nat.le_refl _
    · exact Nat.add_le_add_right (Nat.zero_le _) _
  · exact Nat.le_refl _

theorem callsLeft_startAction (a : Action) :
    callsLeft (startAction ⟨w, stack, result⟩ a).stack ≤ a.timedCalls + callsLeft stack := by
  rcases stack_startAction w stack result a with h | ⟨h, -⟩
  · rw [h, a.timedCalls_eq]
    exact Nat.le_refl _
  · rw [h]
    exact Nat.zero_le _

theorem callsLeft_beginRun :
    callsLeft (beginRun ⟨w, stack, result⟩ id).stack ≤ callsLeft stack := by
  unfold beginRun
  split
  · exact Nat.le_of_eq (Nat.zero_add _)
  · exact callsLeft_deliver .done

theorem callsLeft_beginDestroy :
    callsLeft (beginDestroy ⟨w, stack, result⟩ id).stack ≤ callsLeft stack := by
  unfold beginDestroy
  split
  · exact Nat.le_of_eq (Nat.zero_add _)
  · exact callsLeft_deliver .done

theorem callsLeft_beginTeardown :
    callsLeft (beginTeardown ⟨w, stack, result⟩).stack ≤ callsLeft stack := by
  unfold beginTeardown
  split
  · exact callsLeft_deliver .done
  · exact callsLeft_beginDestroy.trans (Nat.le_of_eq (Nat.zero_add _))

/-- What runs actions puts no more calls on the stack than occur in it. -/
theorem callsLeft_start_of_drives {c : Command} (hc : c.drives = true) :
    callsLeft (start ⟨w, stack, result⟩ c).stack ≤ c.timedCalls + callsLeft stack := by
  cases c with
  | run t =>
    unfold start
    dsimp only
    split
    · exact Nat.zero_le _
    · exact callsLeft_beginRun.trans (Nat.le_add_left _ _)
  | destroy t =>
    unfold start
    dsimp only
    split
    · exact Nat.zero_le _
    · exact callsLeft_beginDestroy.trans (Nat.le_add_left _ _)
  | teardown => exact callsLeft_beginTeardown.trans (Nat.le_add_left _ _)
  | scenario request =>
    rw [Command.timedCalls, Command.calls, ScenarioRequest.timedCalls]
    unfold start
    dsimp only
    split
    · exact (callsLeft_deliver _).trans (Nat.le_add_left _ _)
    · rename_i run hr
      rw [hr]
      exact callsLeft_beginTeardown
  | _ => cases hc

/-- What runs nothing puts nothing on the stack. -/
theorem callsLeft_start_of_not_drives {c : Command} (hc : c.drives = false) :
    callsLeft (start ⟨w, stack, result⟩ c).stack ≤ callsLeft stack := by
  rw [start_of_not_drives hc]
  split
  · exact Nat.zero_le _
  · exact callsLeft_deliver _

/-- **A command makes its timed scheduling calls at once or puts them on the stack.** -/
theorem callsLeft_start (c : Command) :
    callsLeft (start ⟨w, stack, result⟩ c).stack + c.callsAtOnce ≤
      callsLeft stack + c.timedCalls := by
  unfold Command.callsAtOnce
  cases hc : c.drives with
  | true =>
    rw [if_pos rfl, Nat.add_comm (callsLeft stack)]
    exact callsLeft_start_of_drives hc
  | false =>
    rw [if_neg Bool.false_ne_true]
    exact Nat.add_le_add_right (callsLeft_start_of_not_drives hc) _

/-- A turn of a run loop puts no more on the stack than the body of the event that starts. -/
theorem callsLeft_stepRun :
    callsLeft (stepRun ⟨w, .running id :: rest, result⟩ id rest).stack ≤
      callsLeft rest + callsStarted ⟨w, .running id :: rest, result⟩ := by
  have ht := runTurn_stepRun w id (.running id :: rest) rest result
  generalize stepRun ⟨w, .running id :: rest, result⟩ id rest = n at ht ⊢
  unfold callsStarted
  cases ht with
  | absent | ended => exact (callsLeft_deliver .done).trans (Nat.le_add_right _ _)
  | skipped | halted => exact (Nat.le_of_eq (Nat.zero_add _)).trans (Nat.le_add_right _ _)
  | strayed => exact Nat.zero_le _
  | @launched watched k k' e a he hq hp =>
    have hcalls : e.payload.timedCalls = a.timedCalls := by rw [hp, Payload.timedCalls]
    have hrest : callsLeft (.running id :: rest) = callsLeft rest := Nat.zero_add _
    refine (callsLeft_startAction a).trans ?_
    rw [turn?_running he, hq]
    dsimp only [Option.elim_some, Dequeued.deed, Deed.timedCalls]
    omega

theorem callsLeft_stepDestroy :
    callsLeft (stepDestroy ⟨w, .destroying id :: rest, result⟩ id rest).stack ≤
      callsLeft rest + callsStarted ⟨w, .destroying id :: rest, result⟩ := by
  have ht := destroyTurn_stepDestroy w id (.destroying id :: rest) rest result
  generalize stepDestroy ⟨w, .destroying id :: rest, result⟩ id rest = n at ht ⊢
  unfold callsStarted
  cases ht with
  | absent | swept => exact (callsLeft_deliver .done).trans (Nat.le_add_right _ _)
  | @unwound watched k k' e he hq =>
    have hrest : callsLeft (.destroying id :: rest) = callsLeft rest := Nat.zero_add _
    refine (callsLeft_startAction e.action).trans ?_
    rw [turn?_destroying he, Kernel.unwinding, hq]
    dsimp only [Option.elim_some, Deed.timedCalls]
    omega

theorem callsLeft_stepOpened (run : ScenarioRun) :
    callsLeft (stepOpened ⟨w, .scenario run .opened :: rest, result⟩ run rest).stack ≤
      run.timedCalls + callsLeft rest := by
  unfold stepOpened
  split
  · exact Nat.zero_le _
  · split
    · exact Nat.zero_le _
    · exact Nat.add_le_add_right (Nat.zero_le _) _
    · rw [run.timedCalls_eq]
      exact Nat.le_refl _

theorem callsLeft_stepRestore (run : ScenarioRun) (saved : Config)
    (verdict : Except String (Nat × Time)) :
    callsLeft (stepRestore ⟨w, stack, result⟩ run saved verdict rest).stack ≤ callsLeft rest := by
  unfold stepRestore
  split
  · exact Nat.zero_le _
  · exact callsLeft_deliver _

theorem callsLeft_stepScenario (run : ScenarioRun) (stage : ScenarioStage) :
    callsLeft (stepScenario ⟨w, .scenario run stage :: rest, result⟩ run stage rest).stack +
        callsMade ⟨w, .scenario run stage :: rest, result⟩ ≤
      callsLeft (.scenario run stage :: rest) := by
  cases stage with
  | opened => exact callsLeft_stepOpened run
  | probing saved left replies =>
    cases left with
    | nil => exact Nat.le_refl _
    | cons probe left =>
      refine (callsLeft_start probe.command).trans (Nat.le_of_eq ?_)
      rw [Nat.add_comm]
      exact (Nat.add_assoc ..).symm
  | judging => exact Nat.le_refl _
  | judged => exact callsLeft_beginTeardown
  | restoring saved verdict =>
    exact (callsLeft_stepRestore run saved verdict).trans (Nat.le_add_left _ _)

/-- **What is left to be carried out loses the calls that a step makes**, and grows by nothing but
the body of an event that starts. -/
theorem callsLeft_step (m : Machine) :
    callsLeft m.step.stack + m.callsMade ≤ callsLeft m.stack + m.callsStarted := by
  obtain ⟨w, stack, result⟩ := m
  cases stack with
  | nil => exact Nat.le_refl _
  | cons f rest =>
    cases f with
    | body reporting left =>
      cases left with
      | nil => exact Nat.le_of_eq (Nat.zero_add _).symm
      | cons c left =>
        -- the next command has left the frame, and what it makes later is on the stack
        refine (callsLeft_start c).trans (Nat.le_of_eq ?_)
        rw [Nat.add_comm]
        exact (Nat.add_assoc ..).symm
    | answering => exact Nat.le_refl _
    | running id =>
      have hframe : callsLeft (.running id :: rest) = callsLeft rest := Nat.zero_add _
      exact hframe ▸ callsLeft_stepRun
    | destroying id =>
      have hframe : callsLeft (.destroying id :: rest) = callsLeft rest := Nat.zero_add _
      exact hframe ▸ callsLeft_stepDestroy
    | clearing found =>
      exact (callsLeft_deliver .done).trans ((Nat.le_add_left _ _).trans (Nat.le_add_right _ _))
    | scenario run stage => exact callsLeft_stepScenario run stage

/-! ### What is in reserve -/

/-- What a command adds to the reserve it adds at once. -/
theorem reserve_start (c : Command) (counts : KernelId → Bool) :
    (start ⟨w, stack, result⟩ c).world.reserve counts ≤ w.reserve counts + c.callsAtOnce := by
  unfold Command.callsAtOnce
  cases hc : c.drives with
  | true =>
    have hcarries : ∀ a, ¬ c.Carries a := by
      intro a ha
      cases c <;> first | exact ha | cases hc
    have hstop : ∀ t delay name, c ≠ .stopAfter t delay name := by
      rintro t delay name rfl
      cases hc
    refine World.reserve_le_of_evolves ((evolves_start c).mono fun x => ?_)
    exact World.light_of_brings hcarries hstop
  | false =>
    have h := w.reserve_perform c counts
    rw [start_of_not_drives hc, if_neg Bool.false_ne_true]
    split <;> rename_i hp <;> rw [hp] at h
    · rwa [World.reserve_aside (aside_panic _)]
    · rwa [World.reserve_aside (aside_deliver _)]

theorem reserve_startAction (a : Action) (counts : KernelId → Bool) :
    (startAction ⟨w, stack, result⟩ a).world.reserve counts ≤ w.reserve counts :=
  World.reserve_le_of_evolves ((evolves_startAction a).mono fun _ => World.Building.light)

/-- The number `R` of a world loses what the next step dequeues and starts, and grows by nothing but
the calls that are made. -/
def Pays (R : World → Nat) (counts : KernelId → Bool) (m : Machine) : Prop :=
  R m.step.world + (m.dequeues counts + m.callsStarted) ≤ R m.world + m.callsMade

/-- What a turn dequeues and starts is what its deed uses. -/
theorem used_turn (counts : KernelId → Bool) (m : Machine) {d : Deed Action}
    (h : m.turn? .step = some (id, d)) :
    m.dequeues counts + m.callsStarted = d.used (counts id) := by
  rw [dequeues, callsStarted, h]
  rfl

theorem pays_running (w : World) (id : KernelId) (rest : List Frame)
    (result : Option (Except Panic Reply)) (counts : KernelId → Bool) :
    Pays (fun w => w.reserve counts) counts ⟨w, .running id :: rest, result⟩ := by
  unfold Pays
  have ht := runTurn_stepRun w id (.running id :: rest) rest result
  show (stepRun ⟨w, .running id :: rest, result⟩ id rest).world.reserve counts + _ ≤ _
  generalize stepRun ⟨w, .running id :: rest, result⟩ id rest = n at ht ⊢
  cases ht with
  | absent hne =>
    rw [dequeues, callsStarted, turn?_running_of_none (World.kernel?_eq_none hne),
      World.reserve_aside (aside_deliver _)]
    exact Nat.le_add_right _ _
  | @ended watched k he hq =>
    have h := World.reserve_did he (.ended k) counts
    rw [used_turn counts _ (turn?_running he), hq, World.reserve_aside (aside_deliver _)]
    exact h
  | skipped he hq =>
    have h := World.reserve_did he (.skipped hq) counts
    rw [used_turn counts _ (turn?_running he), hq, World.reserve_aside (World.aside_releaseAll _ _)]
    exact h
  | strayed he hq =>
    have h := World.reserve_did he (.strayed hq) counts
    rw [used_turn counts _ (turn?_running he), hq, World.reserve_aside (aside_panic _),
      World.reserve_aside (World.aside_releaseAll _ _)]
    exact h
  | @halted watched k k' e he hq hp =>
    have h := World.reserve_did he (.started hq) counts
    have he' := World.engine?_setEngine_self he (.builtIn watched k')
    -- the event that stops the kernel is a deed of its own
    have h' := World.reserve_did he' (.stopped k') counts
    rw [World.setEngine_setEngine] at h'
    rw [used_turn counts _ (turn?_running he), hq]
    exact (Nat.add_le_add_right h' _).trans h
  | @launched watched k k' e a he hq hp =>
    have h := World.reserve_did he (.started hq) counts
    rw [used_turn counts _ (turn?_running he), hq]
    exact (Nat.add_le_add_right (reserve_startAction a counts) _).trans h

theorem pays_destroying (w : World) (id : KernelId) (rest : List Frame)
    (result : Option (Except Panic Reply)) (counts : KernelId → Bool) :
    Pays (fun w => w.reserve counts) counts ⟨w, .destroying id :: rest, result⟩ := by
  unfold Pays
  have ht := destroyTurn_stepDestroy w id (.destroying id :: rest) rest result
  show (stepDestroy ⟨w, .destroying id :: rest, result⟩ id rest).world.reserve counts + _ ≤ _
  generalize stepDestroy ⟨w, .destroying id :: rest, result⟩ id rest = n at ht ⊢
  cases ht with
  | absent hne =>
    rw [dequeues, callsStarted, turn?_destroying_of_none (World.kernel?_eq_none hne),
      World.reserve_aside (aside_deliver _)]
    exact Nat.le_add_right _ _
  | @unwound watched k k' e he hq =>
    have h := World.reserve_did he (.unwound hq) counts
    rw [used_turn counts _ (turn?_destroying he), Kernel.unwinding, hq]
    exact (Nat.add_le_add_right (reserve_startAction e.action counts) _).trans h
  | @swept watched k he hq =>
    have h := World.reserve_did he (.swept k (Kernel.popTeardown_eq_none.1 hq)) counts
    rw [used_turn counts _ (turn?_destroying he), Kernel.unwinding, hq,
      World.reserve_aside (aside_deliver _), World.reserve_aside (World.aside_releaseAll _ _)]
    exact h

/-- The end of a teardown dequeues and starts nothing. -/
theorem used_clearing (w : World) (found : KernelId) (rest : List Frame)
    (result : Option (Except Panic Reply)) (counts : KernelId → Bool) :
    dequeues counts ⟨w, .clearing found :: rest, result⟩ +
      callsStarted ⟨w, .clearing found :: rest, result⟩ = 0 := by
  unfold dequeues callsStarted turn?
  dsimp only
  cases w.slot with
  | none => rfl
  | some id =>
    rw [Option.bind_some]
    split <;> rfl

/-- **The reserve pays for every step.** -/
theorem pays_reserve (m : Machine) (counts : KernelId → Bool) :
    m.Pays (fun w => w.reserve counts) counts := by
  obtain ⟨w, stack, result⟩ := m
  cases stack with
  | nil => exact Nat.le_refl _
  | cons f rest =>
    have hlight (h : ∀ x, f.Brings w x → x.Light) :
        (step ⟨w, f :: rest, result⟩).world.reserve counts ≤ w.reserve counts :=
      World.reserve_le_of_evolves ((evolves_step f rest).mono h)
    cases f with
    | running id => exact pays_running w id rest result counts
    | destroying id => exact pays_destroying w id rest result counts
    | body reporting left =>
      cases left with
      | nil => exact Nat.le_refl _
      | cons c left =>
        unfold Pays
        rw [step]
        dsimp only
        generalize hv : (if (reporting && c.settles) = true then w.log (.began c.name) else w) = v
        have hreserve : v.reserve counts = w.reserve counts := by
          rw [← hv]
          split <;> rfl
        rw [← hreserve]
        exact reserve_start c counts
    | answering => exact Nat.le_refl _
    | clearing found =>
      unfold Pays
      rw [used_clearing]
      exact hlight fun x hx => by rcases hx with rfl | rfl | ⟨id, -, rfl⟩ <;> trivial
    | scenario run stage =>
      cases stage with
      | probing saved left replies =>
        cases left with
        | nil => exact Nat.le_refl _
        | cons probe left => exact reserve_start probe.command counts
      | judged => exact hlight fun x hx => by rcases hx with rfl | rfl <;> trivial
      | _ => exact hlight fun x hx => by cases hx; trivial

/-! ### Runs -/

section Runs

variable {R : World → Nat} {counts : KernelId → Bool}

/-- What pays for a step pays for what it dequeues, together with the calls that are left. -/
theorem Pays.step (h : m.Pays R counts) :
    R m.step.world + callsLeft m.step.stack + m.dequeues counts ≤
      R m.world + callsLeft m.stack := by
  have hstack := m.callsLeft_step
  unfold Pays at h
  omega

/-- **What pays for every step pays for all that is dequeued.** -/
theorem Pays.steps (h : ∀ i, (m.steps i).Pays R counts) (n : Nat) :
    R (m.steps n).world + callsLeft (m.steps n).stack + m.dequeued counts n ≤
      R m.world + callsLeft m.stack := by
  induction n with
  | zero => exact Nat.le_refl _
  | succ n ih =>
    have hstep := (h n).step
    have hsum : m.dequeued counts (n + 1) = m.dequeued counts n + (m.steps n).dequeues counts :=
      Finset.sum_range_succ _ n
    rw [steps_succ, hsum]
    omega

/-- A call dequeues no more than was in reserve and the timed scheduling calls that occur in it. -/
theorem dequeued_ofCall_le (hpays : ∀ i, ((ofCall w c).steps i).Pays R counts)
    (hstart : R (ofCall w c).world ≤ R w + c.callsAtOnce) (n : Nat) :
    (ofCall w c).dequeued counts n ≤ R w + c.timedCalls := by
  have hsteps := Pays.steps hpays n
  have hstack : callsLeft (ofCall w c).stack + c.callsAtOnce ≤ callsLeft [] + c.timedCalls :=
    callsLeft_start c
  have hempty : callsLeft [] = 0 := rfl
  omega

end Runs

end Machine

end EventSim
