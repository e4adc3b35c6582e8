import EventSim.Proofs.Machine.History
import EventSim.Proofs.World.Settings

/-!
# What moves make of the settings

Running kernels and tearing them down does nothing to the settings of a world.  So the settings
after a move are those that the command leaves that starts in it (`settings_onset`), and **a move
that starts no command leaves the settings alone**, unless it is a scenario that chooses its
scheduler or restores the configuration (`settings_make`); the trace it leaves alone in any case
(`trace_make`).
-/

namespace EventSim

namespace Machine

variable {m : Machine} {w v : World} {s rest : List Frame} {r : Option (Except Panic Reply)}
  {id : KernelId} {c : Command}

@[simp] theorem settings_panic (p : Panic) : (panic ⟨w, s, r⟩ p).world.settings = w.settings := rfl

@[simp] theorem settings_deliver (x : Reply) :
    (deliver ⟨w, s, r⟩ x).world.settings = w.settings := by
  unfold deliver
  dsimp only
  split
  · rfl
  · dsimp only
    split <;> rfl
  · split <;> rfl
  · rfl

theorem settings_startAction (a : Action) :
    (startAction ⟨w, s, r⟩ a).world.settings = w.settings := by
  unfold startAction
  dsimp only
  split
  · rfl
  · split
    · rfl
    · have hn := World.settings_nowOf ‹_›
      split
      · exact hn
      · have hc := World.settings_contextOf ‹_›
        exact hc.trans hn

theorem settings_beginRun (id : KernelId) :
    (beginRun ⟨w, s, r⟩ id).world.settings = w.settings := by
  unfold beginRun
  split
  · rfl
  · exact settings_deliver _

theorem settings_beginDestroy (id : KernelId) :
    (beginDestroy ⟨w, s, r⟩ id).world.settings = w.settings := by
  unfold beginDestroy
  split
  · dsimp only
    split <;> rfl
  · exact settings_deliver _

theorem settings_beginTeardown : (beginTeardown ⟨w, s, r⟩).world.settings = w.settings := by
  unfold beginTeardown
  split
  · exact settings_deliver _
  · exact settings_beginDestroy (w := { w with printers := .none }) _

theorem settings_start_of_drives (h : c.drives = true) :
    (start ⟨w, s, r⟩ c).world.settings = w.settings := by
  cases c with
  | run t =>
    rw [start]
    split
    · rfl
    · exact (settings_beginRun _).trans (World.settings_reach ‹_›)
  | destroy t =>
    rw [start]
    split
    · rfl
    · exact (settings_beginDestroy _).trans (World.settings_reach ‹_›)
  | teardown => exact settings_beginTeardown
  | scenario request =>
    rw [start]
    split
    · exact settings_deliver _
    · exact settings_beginTeardown
  | _ => cases h

theorem settings_start_of_not_drives (h : c.drives = false) :
    (start ⟨w, s, r⟩ c).world.settings = (w.perform c).2.settings := by
  rw [start_of_not_drives h]
  split <;> rename_i hp <;> rw [hp]
  · rfl
  · exact settings_deliver _

/-! ### Steps -/

theorem settings_stepRun (rest : List Frame) :
    (stepRun ⟨w, s, r⟩ id rest).world.settings = w.settings := by
  have ht := runTurn_stepRun w id s rest r
  generalize stepRun ⟨w, s, r⟩ id rest = n at ht ⊢
  cases ht with
  | absent | ended => exact settings_deliver _
  | skipped | strayed => exact World.settings_releaseAll _ _
  | halted => rfl
  | launched => exact settings_startAction _

theorem settings_stepDestroy (rest : List Frame) :
    (stepDestroy ⟨w, s, r⟩ id rest).world.settings = w.settings := by
  have ht := destroyTurn_stepDestroy w id s rest r
  generalize stepDestroy ⟨w, s, r⟩ id rest = n at ht ⊢
  cases ht with
  | absent => exact settings_deliver _
  | unwound => exact settings_startAction _
  | swept => exact (settings_deliver _).trans (World.settings_releaseAll _ _)

theorem settings_stepClear (rest : List Frame) :
    (stepClear ⟨w, s, r⟩ rest).world.settings = w.settings := by
  unfold stepClear
  refine (settings_deliver _).trans ?_
  split
  · rfl
  · exact World.settings_abandon { w with slot := none } _

/-! ### Moves -/

/-- The settings after the start of a command are those that the command leaves. -/
theorem settings_onset {x : Move} (h : m.onset? x = some (v, c)) :
    v.settings = m.world.settings ∧
      (m.make x).world.settings = if c.drives then v.settings else (v.perform c).2.settings := by
  obtain ⟨hv, s, r, hm⟩ := start_of_onset h
  constructor
  · rcases hv with rfl | rfl <;> rfl
  · rw [hm]
    cases hd : c.drives with
    | true => exact settings_start_of_drives hd
    | false => exact settings_start_of_not_drives hd

/-- No scenario is about to choose its scheduler or to restore the configuration. -/
def Unstaged (m : Machine) : Prop := ∀ run stage rest, m.stack ≠ .scenario run stage :: rest

/-- **A move that starts no command leaves the settings alone**, unless it is one of a scenario. -/
theorem settings_make {x : Move} (h : m.onset? x = none) (hs : m.Unstaged) :
    (m.make x).world.settings = m.world.settings := by
  obtain ⟨w, stack, result⟩ := m
  cases x with
  | call => cases h
  | unwind => rfl
  | step =>
    cases stack with
    | nil => rfl
    | cons f rest =>
      cases f with
      | body reporting left =>
        cases left with
        | nil => rfl
        | cons => cases h
      | answering => rfl
      | running => exact settings_stepRun rest
      | destroying => exact settings_stepDestroy rest
      | clearing => exact settings_stepClear rest
      | scenario run stage => exact absurd rfl (hs run stage rest)

end Machine

namespace World

variable {w : World}

theorem trace_write (w : World) (c : Config) : (w.write c).2.trace = w.trace := by
  unfold write
  split <;> rfl

theorem trace_apply (w : World) (c : Config) : (w.apply c).2.trace = w.trace := by
  unfold World.apply
  split
  · rfl
  · exact trace_write w c

theorem trace_onConfig {f : Config → Except Panic Reply × World}
    (hf : ∀ c, (f c).2.trace = w.trace) : (w.onConfig f).2.trace = w.trace := by
  unfold onConfig
  split
  · rfl
  · exact hf _

theorem trace_chooseScheduler (w : World) (name : String) :
    (w.chooseScheduler name).2.trace = w.trace := by
  unfold chooseScheduler
  split
  · rfl
  · exact trace_onConfig fun c => trace_write w _

end World

namespace Machine

variable {m : Machine} {w : World} {s rest : List Frame} {r : Option (Except Panic Reply)}

theorem trace_stepOpened (run : ScenarioRun) (rest : List Frame) :
    (stepOpened ⟨w, s, r⟩ run rest).world.trace = w.trace := by
  unfold stepOpened
  split
  · rfl
  · have h := World.trace_chooseScheduler w run.scheduler
    split <;> rename_i hc <;> rw [hc] at h <;> exact h

theorem trace_stepRestore (run : ScenarioRun) (saved : Config)
    (verdict : Except String (Nat × Time)) (rest : List Frame) :
    (stepRestore ⟨w, s, r⟩ run saved verdict rest).world.trace = w.trace := by
  unfold stepRestore
  have h := World.trace_apply w saved
  split <;> rename_i ha <;> rw [ha] at h
  · exact h
  · exact (World.trace_of_settings (settings_deliver _)).trans h

/-- **A move that starts no command leaves the trace alone.** -/
theorem trace_make {x : Move} (h : m.onset? x = none) : (m.make x).world.trace = m.world.trace := by
  by_cases hs : m.Unstaged
  · exact World.trace_of_settings (settings_make h hs)
  · obtain ⟨run, stage, rest, hstack⟩ : ∃ run stage rest, m.stack = .scenario run stage :: rest := by
      simpa only [Unstaged, not_forall, not_not] using hs
    obtain ⟨w, stack, result⟩ := m
    cases hstack
    cases x with
    | call => cases h
    | unwind => rfl
    | step =>
      cases stage with
      | opened => exact trace_stepOpened run rest
      | probing saved left replies =>
        cases left with
        | nil => rfl
        | cons => cases h
      | judging => rfl
      | judged => exact World.trace_of_settings settings_beginTeardown
      | restoring saved verdict => exact trace_stepRestore run saved verdict rest

end Machine

end EventSim
