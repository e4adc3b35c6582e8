import EventSim.Proofs.Machine.Bookkeeping
import EventSim.Proofs.World.Panics

/-!
# What sessions panic about

A run loop panics if its scheduler hands out an event of the past, and a query if the delay that is
left cannot be calculated.  The books of every kernel agree in every state of a lawful session, so
neither comes about: **no lawful session ends in a panic about virtual time** (`Reached.punctual`).
-/

namespace EventSim

namespace Machine

/-- The outermost call has not ended in a panic about virtual time. -/
def Punctual (m : Machine) : Prop := ∀ r ∈ m.result, Timely r

variable {m : Machine} {w : World} {s : List Frame} {r : Option (Except Panic Reply)} {p : Panic}
  {ρ : Type} {x : Except Panic ρ}

/-! ### Ends and starts of calls -/

/-- The session panics about what something else has panicked about. -/
theorem punctual_panic (hx : Timely x) (h : x = .error p) : (panic m p).Punctual := by
  rintro y ⟨rfl⟩
  exact World.timely_error hx h

theorem punctual_deliver (h : ∀ x ∈ r, Timely x) (x : Reply) :
    (deliver ⟨w, s, r⟩ x).Punctual := by
  unfold deliver
  split
  · rintro y ⟨rfl⟩
    trivial
  · exact h
  · dsimp only
    split <;> exact h
  · exact h

theorem punctual_startAction (h : ∀ x ∈ r, Timely x) (a : Action) :
    (startAction ⟨w, s, r⟩ a).Punctual := by
  unfold startAction
  dsimp only
  split
  · exact h
  · split
    · exact punctual_panic (w.timely_nowOf a.target) ‹_›
    · split
      · exact punctual_panic (World.timely_contextOf _ a.target) ‹_›
      · exact h

theorem punctual_beginRun (h : ∀ x ∈ r, Timely x) (id : KernelId) :
    (beginRun ⟨w, s, r⟩ id).Punctual := by
  unfold beginRun
  split
  · exact h
  · exact punctual_deliver h _

theorem punctual_beginDestroy (h : ∀ x ∈ r, Timely x) (id : KernelId) :
    (beginDestroy ⟨w, s, r⟩ id).Punctual := by
  unfold beginDestroy
  split
  · exact h
  · exact punctual_deliver h _

theorem punctual_beginTeardown (h : ∀ x ∈ r, Timely x) :
    (beginTeardown ⟨w, s, r⟩).Punctual := by
  unfold beginTeardown
  split
  · exact punctual_deliver h _
  · exact punctual_beginDestroy h _

theorem punctual_start (hw : w.Sound) (h : ∀ x ∈ r, Timely x) (c : Command) :
    (start ⟨w, s, r⟩ c).Punctual := by
  unfold start
  split
  · split
    · exact punctual_panic (w.timely_reach _) ‹_›
    · exact punctual_beginRun h _
  · split
    · exact punctual_panic (w.timely_reach _) ‹_›
    · exact punctual_beginDestroy h _
  · exact punctual_beginTeardown h
  · split
    · exact punctual_deliver h _
    · exact punctual_beginTeardown h
  · have hp := World.timely_perform hw c
    split <;> rename_i heq <;> rw [heq] at hp
    · exact punctual_panic hp rfl
    · exact punctual_deliver h _

/-! ### Steps -/

theorem punctual_stepRun (hw : w.Sound) (h : ∀ x ∈ r, Timely x) (id : KernelId)
    (rest : List Frame) : (stepRun ⟨w, s, r⟩ id rest).Punctual := by
  have ht := runTurn_stepRun w id s rest r
  generalize stepRun ⟨w, s, r⟩ id rest = n at ht ⊢
  cases ht with
  | absent | ended => exact punctual_deliver h _
  | skipped | halted => exact h
  | strayed he hq => exact absurd hq (hw.kernels he).not_past
  | launched => exact punctual_startAction h _

theorem punctual_stepDestroy (h : ∀ x ∈ r, Timely x) (id : KernelId) (rest : List Frame) :
    (stepDestroy ⟨w, s, r⟩ id rest).Punctual := by
  have ht := destroyTurn_stepDestroy w id s rest r
  generalize stepDestroy ⟨w, s, r⟩ id rest = n at ht ⊢
  cases ht with
  | absent | swept => exact punctual_deliver h _
  | unwound => exact punctual_startAction h _

theorem punctual_stepClear (h : ∀ x ∈ r, Timely x) (rest : List Frame) :
    (stepClear ⟨w, s, r⟩ rest).Punctual := by
  unfold stepClear
  exact punctual_deliver h _

theorem punctual_stepScenario (hw : w.Sound) (h : ∀ x ∈ r, Timely x) (run : ScenarioRun)
    (stage : ScenarioStage) (rest : List Frame) :
    (stepScenario ⟨w, s, r⟩ run stage rest).Punctual := by
  cases stage with
  | opened =>
    rw [stepScenario, stepOpened]
    split
    · exact punctual_panic w.timely_config ‹_›
    · have hc := w.timely_chooseScheduler run.scheduler
      split <;> rename_i heq <;> rw [heq] at hc
      · exact punctual_panic hc rfl
      · exact h
      · exact h
  | probing saved left replies =>
    cases left with
    | nil => exact h
    | cons probe left =>
      rw [stepScenario]
      exact punctual_start hw h probe.command
  | judging => exact h
  | judged => exact punctual_beginTeardown h
  | restoring saved verdict =>
    rw [stepScenario, stepRestore]
    have ha := w.timely_apply saved
    split <;> rename_i heq <;> rw [heq] at ha
    · exact punctual_panic ha rfl
    · exact punctual_deliver h _

theorem punctual_step (hw : m.world.Sound) (h : m.Punctual) : m.step.Punctual := by
  obtain ⟨w, stack, r⟩ := m
  cases stack with
  | nil => exact h
  | cons f rest =>
    cases f with
    | body reporting left =>
      cases left with
      | nil => exact h
      | cons c left =>
        have hlog : (if reporting && c.settles then w.log (.began c.name) else w).Sound := by
          split
          · exact hw.aside (World.aside_log w _)
          · exact hw
        exact punctual_start hlog h c
    | answering => exact h
    | running id => exact punctual_stepRun hw h id rest
    | destroying id => exact punctual_stepDestroy h id rest
    | clearing => exact punctual_stepClear h rest
    | scenario run stage => exact punctual_stepScenario hw h run stage rest

/-- **No lawful session ends in a panic about virtual time.** -/
theorem Reached.punctual (hm : Reached Command.Lawful m) : m.Punctual := by
  induction hm with
  | pristine =>
    rintro x hx
    cases hx
  | call hm =>
    refine punctual_start hm.sound (fun x hx => ?_) _
    cases hx
  | step hm ih => exact punctual_step hm.sound ih
  | unwound _ _ ih => exact ih

end Machine

end EventSim
