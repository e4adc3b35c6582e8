import EventSim.Machine

/-!
# Programs as trees

A command carries actions and an action carries commands, so a program is a tree.  `Command.All p`
says that `p` holds at every command of the tree, the links of a chain included.  What a scenario
carries out is not part of the tree but of its plan; `all_plan` says of which commands the plans are
made.
-/

namespace EventSim

mutual

/-- The command and all commands below it satisfy `p`. -/
def Command.All (p : Command → Prop) : Command → Prop
  | .schedule t timing name a => p (.schedule t timing name a) ∧ a.All p
  | .scheduleEach t delays name a => p (.scheduleEach t delays name a) ∧ a.All p
  | .chain t tag delay length name => ∀ n ≤ length, p (.chain t tag delay n name)
  | c => p c

/-- All commands of the action and below satisfy `p`. -/
def Action.All (p : Command → Prop) : Action → Prop
  | .mk _ _ _ body => allOf p body

/-- All commands of the list and below satisfy `p`. -/
def allOf (p : Command → Prop) : List Command → Prop
  | [] => True
  | c :: rest => c.All p ∧ allOf p rest

end

variable {p q : Command → Prop}

theorem allOf_iff {l : List Command} : allOf p l ↔ ∀ c ∈ l, c.All p := by
  induction l with
  | nil => simp [allOf]
  | cons c rest ih => simp [allOf, ih]

theorem Action.all_iff {a : Action} : a.All p ↔ ∀ c ∈ a.body, c.All p := by
  cases a with
  | mk tag reporting target body => rw [Action.All, allOf_iff, Action.body]

theorem Action.all_numbered {a : Action} (i : Nat) : (a.numbered i).All p ↔ a.All p := by
  rw [Action.all_iff, Action.all_iff]
  rfl

theorem Command.All.self {c : Command} (h : c.All p) : p c := by
  cases c with
  | schedule => exact (by simpa only [Command.All] using h : _ ∧ _).1
  | scheduleEach => exact (by simpa only [Command.All] using h : _ ∧ _).1
  | chain t tag delay length name =>
    simp only [Command.All] at h
    exact h length (Nat.le_refl _)
  | _ => simpa only [Command.All] using h

mutual

theorem Command.All.imp (hpq : ∀ c, p c → q c) : ∀ {c : Command}, c.All p → c.All q
  | .schedule .., h => by
    simp only [Command.All] at h ⊢
    exact ⟨hpq _ h.1, h.2.imp hpq⟩
  | .scheduleEach .., h => by
    simp only [Command.All] at h ⊢
    exact ⟨hpq _ h.1, h.2.imp hpq⟩
  | .chain .., h => by
    simp only [Command.All] at h ⊢
    exact fun n hn => hpq _ (h n hn)
  | .idle, h | .stopAfter .., h | .cancel .., h | .remove .., h | .isExpired .., h
  | .delayLeft .., h | .run _, h | .stop _, h | .destroy _, h | .attach .., h | .query .., h
  | .inspect _, h | .same .., h | .forge .., h | .build .., h | .panic _, h | .isPopulated, h
  | .attachNamed _, h | .install _, h | .teardown, h | .scenario _, h | .config _, h
  | .registry _, h | .printing _, h | .trace _, h | .observe _, h | .observations, h | .capture, h
  | .isStored _, h | .backendName _, h => by
    simp only [Command.All] at h ⊢
    exact hpq _ h

theorem Action.All.imp (hpq : ∀ c, p c → q c) : ∀ {a : Action}, a.All p → a.All q
  | .mk _ _ _ body, h => by
    simp only [Action.All] at h ⊢
    exact allOf.imp hpq h

theorem allOf.imp (hpq : ∀ c, p c → q c) : ∀ {l : List Command}, allOf p l → allOf q l
  | [], _ => by simp only [allOf]
  | _ :: _, h => by
    simp only [allOf] at h ⊢
    exact ⟨h.1.imp hpq, allOf.imp hpq h.2⟩

end

/-- The command may run actions, so that it ends later than it starts. -/
def Command.drives : Command → Bool
  | .run _ | .destroy _ | .teardown | .scenario _ => true
  | _ => false

/-! ### Plans -/

namespace Command

/-- The commands of which the plans of the scenarios are made. -/
def Staged : Command → Prop
  | .schedule .facade .. | .stopAfter .facade .. | .cancel .facade _ | .remove .facade _
  | .isExpired .facade _ | .run .facade | .query .. | .build .. | .isPopulated | .install _
  | .teardown | .registry (.lookupScheduler _) | .observe _ | .observations | .capture
  | .isStored _ | .backendName _ => True
  | _ => False

/-- The command hands a named kernel to the facade. -/
def Installs : Command → Prop
  | .install (.held _) => True
  | _ => False

/-- The commands of the plans, without the one that hands a named kernel to the facade. -/
def Rehearsed (c : Command) : Prop := c.Staged ∧ ¬ c.Installs

end Command

namespace Scenario

/-- The probe and all that it carries are staged. -/
def Probe.Staged (x : Probe) : Prop := x.command.All Command.Staged

/-- The probe and all that it carries are staged and hand no named kernel to the facade. -/
def Probe.Rehearsed (x : Probe) : Prop := x.command.All Command.Rehearsed

theorem Probe.Rehearsed.staged {x : Probe} (h : x.Rehearsed) : x.Staged :=
  Command.All.imp (fun _ hc => hc.1) h

theorem rehearsed_scheduled {timing : Timing} {n : Nat} {body : List Command}
    (h : ∀ c ∈ body, c.All Command.Rehearsed) : (scheduled timing n body).Rehearsed := by
  simp only [Probe.Rehearsed, scheduled, event, Command.All]
  exact ⟨⟨trivial, id⟩, Action.all_iff.2 h⟩

theorem rehearsed_runs : runs.Rehearsed := by
  simp [Probe.Rehearsed, runs, Command.All, Command.Rehearsed, Command.Staged, Command.Installs]

theorem rehearsed_captured : captured.Rehearsed := by
  simp [Probe.Rehearsed, captured, Command.All, Command.Rehearsed, Command.Staged,
    Command.Installs]

theorem rehearsed_observe (s : Sighting) :
    ∀ c ∈ [Command.observe s], c.All Command.Rehearsed := by
  simp [Command.All, Command.Rehearsed, Command.Staged, Command.Installs]

theorem rehearsed_randomLoad (l : List (Nat × Random.Fate)) :
    ∀ x ∈ randomLoad l, x.Rehearsed := by
  intro x hx
  simp only [randomLoad, List.mem_append, List.mem_map, List.mem_filterMap, List.mem_cons,
    List.not_mem_nil, or_false] at hx
  rcases hx with (⟨y, -, rfl⟩ | ⟨⟨⟨d, fate⟩, i⟩, -, hy⟩) | rfl | rfl | rfl | rfl
  · exact rehearsed_scheduled (rehearsed_observe _)
  · cases fate <;> cases hy <;>
      simp [Probe.Rehearsed, Command.All, Command.Rehearsed, Command.Staged, Command.Installs]
  · exact rehearsed_runs
  · simp [Probe.Rehearsed, Command.All, Command.Rehearsed, Command.Staged, Command.Installs]
  · simp [Probe.Rehearsed, Command.All, Command.Rehearsed, Command.Staged, Command.Installs]
  · exact rehearsed_captured

/-- Of the scenarios, only `injection` hands a kernel to the facade. -/
theorem rehearsed_plan {s : ScenarioId} (hs : s ≠ .injection) (seed : UInt64)
    (scheduler : String) (events : Nat) : ∀ x ∈ plan s seed scheduler events, x.Rehearsed := by
  cases s with
  | injection => exact absurd rfl hs
  | randomLoad => exact rehearsed_randomLoad _
  | fifoTies =>
    intro x hx
    simp only [plan, fifoTies, List.mem_append, List.mem_map, List.mem_cons, List.not_mem_nil,
      or_false] at hx
    rcases hx with ⟨i, -, rfl⟩ | rfl | rfl | rfl
    · exact rehearsed_scheduled (rehearsed_observe _)
    · exact rehearsed_runs
    · simp [Probe.Rehearsed, Command.All, Command.Rehearsed, Command.Staged, Command.Installs]
    · exact rehearsed_captured
  | _ =>
    simp [plan, ordering, cancel, stopAt, destroy, contextPropagation, restart, Probe.Rehearsed,
      scheduled, event, runs, captured, Action.silent, Action.all_iff, Action.body, Command.All,
      Command.Rehearsed, Command.Staged, Command.Installs]

/-- That one first makes the kernel and then hands it over. -/
theorem rehearsed_injection (seed : UInt64) (scheduler : String) : ∃ rest,
    injection seed scheduler =
      ⟨.build (some .injected) (.builtIn (seed % 1024).toUInt32), anything⟩ ::
        ⟨.install (.held .injected), accepted⟩ :: rest ∧ ∀ x ∈ rest, x.Rehearsed := by
  refine ⟨_, rfl, ?_⟩
  simp [Probe.Rehearsed, scheduled, event, runs, captured, injected, Action.silent,
    Action.all_iff, Action.body, Command.All, Command.Rehearsed, Command.Staged, Command.Installs]

/-- The plans of the scenarios are made of staged commands. -/
theorem staged_plan (s : ScenarioId) (seed : UInt64) (scheduler : String) (events : Nat) :
    ∀ x ∈ plan s seed scheduler events, x.Staged := by
  by_cases hs : s = .injection
  · subst hs
    obtain ⟨rest, heq, hrest⟩ := rehearsed_injection seed scheduler
    intro x hx
    rw [plan, heq] at hx
    rcases List.mem_cons.1 hx with rfl | hx
    · simp [Probe.Staged, Command.All, Command.Staged]
    · rcases List.mem_cons.1 hx with rfl | hx
      · simp [Probe.Staged, Command.All, Command.Staged]
      · exact (hrest x hx).staged
  · exact fun x hx => (rehearsed_plan hs seed scheduler events x hx).staged

end Scenario

/-- Scenarios carry out nothing but commands that satisfy `p`. -/
theorem ScenarioRun.all_plan (hp : ∀ c, c.Staged → p c) (run : ScenarioRun) :
    ∀ x ∈ run.plan, x.command.All p :=
  fun x hx => (Scenario.staged_plan run.scenario run.seed run.scheduler run.events x hx).imp hp

end EventSim
