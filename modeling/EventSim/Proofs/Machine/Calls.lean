import EventSim.Proofs.Machine.Sights
import EventSim.Proofs.Machine.Stacks

/-!
# Calls in the middle of other calls

A call does not look at what waits below it.  `Machine.onto` puts what a machine is in the middle of
on top of a stack that waits for the reply, and every step commutes with that (`onto_step`).  So
**a command that is called in the middle of a call does what it does from outside**, and then the
frame that waits for its reply goes on (`leads_call`).
-/

namespace EventSim

namespace Machine

/-- The machine comes to another one in some steps. -/
def Leads (m n : Machine) : Prop := ∃ l, m.Sees l n

/-- The machine does what `m` is in the middle of on top of a stack, which waits for the reply. -/
def onto (m : Machine) (s : List Frame) (r : Option (Except Panic Reply)) : Machine :=
  match m.result with
  | none => ⟨m.world, m.stack ++ s, r⟩
  | some (.ok x) => deliver ⟨m.world, s, r⟩ x
  | some (.error p) => ⟨m.world, [], some (.error p)⟩

/-- The machine after a call that was made on top of a stack. -/
def resumed (s : List Frame) (r : Option (Except Panic Reply)) :
    Except Panic Reply × World → Machine
  | (.ok x, w) => deliver ⟨w, s, r⟩ x
  | (.error p, w) => ⟨w, [], some (.error p)⟩

variable {m n o : Machine} {w : World} {s t rest : List Frame} {r : Option (Except Panic Reply)}

/-! ### Paths -/

theorem Leads.refl (m : Machine) : m.Leads m := ⟨[], .refl m⟩

theorem Leads.trans (h : m.Leads n) (g : n.Leads o) : m.Leads o := by
  obtain ⟨l, hl⟩ := h
  obtain ⟨l', hl'⟩ := g
  exact ⟨l ++ l', hl.trans hl'⟩

theorem Leads.single (h : m.stack ≠ []) : m.Leads m.step := ⟨_, .single h⟩

/-- A machine ends like any other one on its way. -/
theorem Leads.run_eq (h : m.Leads n) : m.run = n.run := by
  obtain ⟨l, hl⟩ := h
  exact hl.seen_eq.2

/-! ### Calls that go on -/

/-- The call goes on and nothing but a reply can end it, or it has been answered. -/
def Answers (m : Machine) : Prop :=
  m.stack = [] ∧ m.result.isSome ∨
    m.result = none ∧ ∃ above role, roles m.stack = above ++ [role] ∧ role ≠ .body

/-- A reply can be delivered: to the outermost call, or to a frame above one that is no action. -/
def Rooted (s : List Frame) : Prop :=
  s = [] ∨ ∃ above role, roles s = above ++ [role] ∧ role ≠ .body

theorem Rooted.cons (h : Rooted s) {f : Frame} (hf : f.role ≠ .body) : Rooted (f :: s) := by
  rcases h with rfl | ⟨above, role, hs, hr⟩
  · exact .inr ⟨[], f.role, rfl, hf⟩
  · exact .inr ⟨f.role :: above, role, congrArg (f.role :: ·) hs, hr⟩

theorem answers_deliver (h : Rooted s) (x : Reply) : (deliver ⟨w, s, none⟩ x).Answers := by
  have hroles : roles (deliver ⟨w, s, none⟩ x).stack = roles s := roles_deliver x
  rcases h with rfl | ⟨above, role, hs, hr⟩
  · exact .inl ⟨rfl, rfl⟩
  · refine .inr ⟨?_, above, role, hroles.trans hs, hr⟩
    unfold deliver
    split
    · rename_i hnil
      cases hnil
      simp [roles] at hs
    · rfl
    · dsimp only
      split <;> rfl
    · rfl

theorem answers_panic (p : Panic) : (panic ⟨w, s, r⟩ p).Answers := .inl ⟨rfl, rfl⟩

theorem Rooted.answers (h : Rooted s) (hs : s ≠ []) : Answers ⟨w, s, none⟩ :=
  .inr ⟨rfl, h.resolve_left hs⟩

theorem Rooted.push (h : Rooted s) (hs : s ≠ []) (f : Frame) : Answers ⟨w, f :: s, none⟩ := by
  obtain ⟨above, role, hroles, hr⟩ := h.resolve_left hs
  exact .inr ⟨rfl, f.role :: above, role, congrArg (f.role :: ·) hroles, hr⟩

theorem answers_startAction (h : Rooted s) (hs : s ≠ []) (a : Action) :
    (startAction ⟨w, s, none⟩ a).Answers := by
  unfold startAction
  dsimp only
  split
  · exact h.push hs _
  · split
    · exact answers_panic _
    · split
      · exact answers_panic _
      · exact h.push hs _

theorem answers_beginRun (h : Rooted s) (id : KernelId) :
    (beginRun ⟨w, s, none⟩ id).Answers := by
  unfold beginRun
  split
  · have hr : (Frame.running id).role ≠ .body := nofun
    exact (h.cons hr).answers (List.cons_ne_nil _ _)
  · exact answers_deliver h _

theorem answers_beginDestroy (h : Rooted s) (id : KernelId) :
    (beginDestroy ⟨w, s, none⟩ id).Answers := by
  unfold beginDestroy
  split
  · have hr : (Frame.destroying id).role ≠ .body := nofun
    exact (h.cons hr).answers (List.cons_ne_nil _ _)
  · exact answers_deliver h _

theorem answers_beginTeardown (h : Rooted s) : (beginTeardown ⟨w, s, none⟩).Answers := by
  unfold beginTeardown
  split
  · exact answers_deliver h _
  · rename_i id _
    have hr : (Frame.clearing id).role ≠ .body := nofun
    exact answers_beginDestroy (h.cons hr) id

theorem answers_start (h : Rooted s) (c : Command) : (start ⟨w, s, none⟩ c).Answers := by
  unfold start
  split
  · split
    · exact answers_panic _
    · exact answers_beginRun h _
  · split
    · exact answers_panic _
    · exact answers_beginDestroy h _
  · exact answers_beginTeardown h
  · split
    · exact answers_deliver h _
    · rename_i run _
      have hr : (Frame.scenario run .opened).role ≠ .body := nofun
      exact answers_beginTeardown (h.cons hr)
  · split
    · exact answers_panic _
    · exact answers_deliver h _

/-- The frames below one that ends. -/
theorem Rooted.tail {f : Frame} (h : Rooted (f :: rest)) : Rooted rest := by
  obtain ⟨above, role, hs, hr⟩ := h.resolve_left (List.cons_ne_nil _ _)
  cases above with
  | nil =>
    cases rest with
    | nil => exact .inl rfl
    | cons g rest => cases hs
  | cons first above => exact .inr ⟨above, role, (List.cons.inj hs).2, hr⟩

/-- An action is not the last to end. -/
theorem Rooted.ne_nil {f : Frame} (h : Rooted (f :: rest)) (hf : f.role = .body) : rest ≠ [] := by
  rintro rfl
  obtain ⟨above, role, hs, hr⟩ := h.resolve_left (List.cons_ne_nil _ _)
  cases above with
  | nil => exact hr ((List.cons.inj hs).1.symm.trans hf)
  | cons first above => simp [roles] at hs

theorem answers_stepScenario {run : ScenarioRun} {stage : ScenarioStage} (h : Rooted rest) :
    (stepScenario ⟨w, .scenario run stage :: rest, none⟩ run stage rest).Answers := by
  have hne {stage : ScenarioStage} : Frame.scenario run stage :: rest ≠ [] := List.cons_ne_nil _ _
  have hframe {stage : ScenarioStage} : Rooted (.scenario run stage :: rest) := h.cons nofun
  unfold stepScenario
  split
  · unfold stepOpened
    split
    · exact answers_panic _
    · split
      · exact answers_panic _
      · exact hframe.answers hne
      · exact hframe.answers hne
  · exact hframe.answers hne
  · exact answers_start hframe _
  · exact hframe.answers hne
  · exact answers_beginTeardown hframe
  · unfold stepRestore
    split
    · exact answers_panic _
    · exact answers_deliver h _

/-- **A call goes on until it is answered.** -/
theorem answers_step (h : m.Answers) (hne : m.stack ≠ []) : m.step.Answers := by
  obtain ⟨w, stack, result⟩ := m
  obtain ⟨rfl, above, role, hs, hr⟩ := h.resolve_left fun hn => hne hn.1
  have h : Rooted stack := .inr ⟨above, role, hs, hr⟩
  cases stack with
  | nil => exact absurd rfl hne
  | cons f rest =>
    cases f with
    | body reporting left =>
      cases left with
      | nil => exact h.tail.answers (h.ne_nil rfl)
      | cons c left =>
        have h : Rooted (.answering reporting c.name left :: rest) := .inr ⟨above, role, hs, hr⟩
        exact answers_start h c
    | answering reporting command left => exact .inr ⟨rfl, above, role, hs, hr⟩
    | running id =>
      have ht := runTurn_stepRun w id (.running id :: rest) rest none
      show (stepRun ⟨w, .running id :: rest, none⟩ id rest).Answers
      generalize stepRun ⟨w, .running id :: rest, none⟩ id rest = n at ht
      cases ht with
      | absent | ended => exact answers_deliver h.tail _
      | skipped | halted => exact h.answers hne
      | strayed => exact answers_panic _
      | launched => exact answers_startAction h hne _
    | destroying id =>
      have ht := destroyTurn_stepDestroy w id (.destroying id :: rest) rest none
      show (stepDestroy ⟨w, .destroying id :: rest, none⟩ id rest).Answers
      generalize stepDestroy ⟨w, .destroying id :: rest, none⟩ id rest = n at ht
      cases ht with
      | absent | swept => exact answers_deliver h.tail _
      | unwound => exact answers_startAction h hne _
    | clearing found => exact answers_deliver h.tail _
    | scenario run stage => exact answers_stepScenario h.tail

/-! ### Steps on top of a stack -/

theorem onto_none (w : World) (t s : List Frame) (r : Option (Except Panic Reply)) :
    onto ⟨w, t, none⟩ s r = ⟨w, t ++ s, r⟩ := rfl

theorem onto_deliver (x : Reply) :
    (deliver ⟨w, t, none⟩ x).onto s r = deliver ⟨w, t ++ s, r⟩ x := by
  cases t with
  | nil => rfl
  | cons f t =>
    cases f with
    | scenario run stage =>
      cases stage with
      | judging saved probe left replies =>
        simp only [deliver, List.cons_append]
        cases probe.judge (x :: replies) <;> rfl
      | _ => rfl
    | _ => rfl

theorem onto_startAction (a : Action) :
    (startAction ⟨w, t, none⟩ a).onto s r = startAction ⟨w, t ++ s, r⟩ a := by
  unfold startAction
  dsimp only
  cases a.tag with
  | none => rfl
  | some tag =>
    dsimp only
    cases w.nowOf a.target with
    | error p => rfl
    | ok now =>
      obtain ⟨now, v⟩ := now
      dsimp only
      cases v.contextOf a.target with
      | error p => rfl
      | ok context => rfl

theorem onto_beginRun (id : KernelId) :
    (beginRun ⟨w, t, none⟩ id).onto s r = beginRun ⟨w, t ++ s, r⟩ id := by
  unfold beginRun
  dsimp only
  split
  · rfl
  · exact onto_deliver _

theorem onto_beginDestroy (id : KernelId) :
    (beginDestroy ⟨w, t, none⟩ id).onto s r = beginDestroy ⟨w, t ++ s, r⟩ id := by
  unfold beginDestroy
  dsimp only
  split
  · rfl
  · exact onto_deliver _

theorem onto_beginTeardown :
    (beginTeardown ⟨w, t, none⟩).onto s r = beginTeardown ⟨w, t ++ s, r⟩ := by
  unfold beginTeardown
  dsimp only
  split
  · exact onto_deliver _
  · exact onto_beginDestroy (t := .clearing _ :: t) _

theorem onto_start (c : Command) : (start ⟨w, t, none⟩ c).onto s r = start ⟨w, t ++ s, r⟩ c := by
  unfold start
  dsimp only
  split
  · split
    · rfl
    · exact onto_beginRun _
  · split
    · rfl
    · exact onto_beginDestroy _
  · exact onto_beginTeardown
  · split
    · exact onto_deliver _
    · exact onto_beginTeardown (t := .scenario _ .opened :: t)
  · split
    · rfl
    · exact onto_deliver _

theorem onto_stepRun (id : KernelId) :
    (stepRun ⟨w, .running id :: t, none⟩ id t).onto s r =
      stepRun ⟨w, .running id :: (t ++ s), r⟩ id (t ++ s) := by
  unfold stepRun
  dsimp only
  split
  · split
    · exact onto_deliver _
    · rfl
    · rfl
    · split
      · rfl
      · exact onto_startAction _
  · exact onto_deliver _

theorem onto_stepDestroy (id : KernelId) :
    (stepDestroy ⟨w, .destroying id :: t, none⟩ id t).onto s r =
      stepDestroy ⟨w, .destroying id :: (t ++ s), r⟩ id (t ++ s) := by
  unfold stepDestroy
  dsimp only
  split
  · split
    · exact onto_startAction _
    · exact onto_deliver _
  · exact onto_deliver _

theorem onto_stepScenario (run : ScenarioRun) (stage : ScenarioStage) :
    (stepScenario ⟨w, .scenario run stage :: t, none⟩ run stage t).onto s r =
      stepScenario ⟨w, .scenario run stage :: (t ++ s), r⟩ run stage (t ++ s) := by
  unfold stepScenario
  split
  · unfold stepOpened
    dsimp only
    split
    · rfl
    · split <;> rfl
  · rfl
  · exact onto_start (t := .scenario _ _ :: t) _
  · rfl
  · exact onto_beginTeardown (t := .scenario _ _ :: t)
  · unfold stepRestore
    dsimp only
    split
    · rfl
    · exact onto_deliver _

/-- **A step does not look at what waits below.** -/
theorem onto_step (h : m.Answers) (hne : m.stack ≠ []) : m.step.onto s r = (m.onto s r).step := by
  obtain ⟨w, stack, result⟩ := m
  obtain ⟨rfl, -⟩ := h.resolve_left fun hn => hne hn.1
  cases stack with
  | nil => exact absurd rfl hne
  | cons f t =>
    rw [onto_none]
    cases f with
    | body reporting left =>
      cases left with
      | nil => rfl
      | cons c left => exact onto_start (t := .answering _ _ left :: t) c
    | answering => rfl
    | running id => exact onto_stepRun id
    | destroying id => exact onto_stepDestroy id
    | clearing found => exact onto_deliver _
    | scenario run stage => exact onto_stepScenario run stage

/-- What leads on leads on on top of a stack. -/
theorem leads_onto {l : List (Sight × World)} (h : m.Sees l n) (ha : m.Answers) :
    (m.onto s r).Leads (n.onto s r) ∧ n.Answers := by
  induction h with
  | refl => exact ⟨.refl _, ha⟩
  | @step m n l hne _ ih =>
    obtain ⟨hleads, hn⟩ := ih (answers_step ha hne)
    obtain ⟨hnone, -⟩ := ha.resolve_left fun h => hne h.1
    have hstack : (m.onto s r).stack ≠ [] := by
      rw [onto, hnone]
      exact List.append_ne_nil_of_left_ne_nil hne s
    rw [onto_step ha hne] at hleads
    exact ⟨(Leads.single hstack).trans hleads, hn⟩

/-- A call that has ended is answered to the stack on top of which it was made. -/
theorem onto_run (w : World) (c : Command) (s : List Frame) (r : Option (Except Panic Reply)) :
    (ofCall w c).run.onto s r = resumed s r (w.call c) := by
  obtain ⟨-, ha⟩ := leads_onto (s := s) (r := r) (sees_run (ofCall w c))
    (answers_start (.inl rfl) c)
  have hstack : (ofCall w c).run.stack = [] := stack_run _
  obtain ⟨-, hresult⟩ : (ofCall w c).run.stack = [] ∧ (ofCall w c).run.result.isSome := by
    rcases ha with ha | ⟨-, above, role, hs, -⟩
    · exact ha
    · rw [hstack] at hs
      simp [roles] at hs
  obtain ⟨x, hx⟩ := Option.isSome_iff_exists.1 hresult
  have hcall : w.call c = (x, (ofCall w c).run.world) := by rw [World.call, hx]; rfl
  rw [hcall, onto, hx]
  cases x <;> rfl

/-- **A command that is called in the middle of a call does what it does from outside.** -/
theorem leads_call (w : World) (c : Command) (s : List Frame) (r : Option (Except Panic Reply)) :
    (start ⟨w, s, r⟩ c).Leads (resumed s r (w.call c)) := by
  obtain ⟨hleads, -⟩ := leads_onto (s := s) (r := r) (sees_run (ofCall w c))
    (answers_start (.inl rfl) c)
  rw [ofCall, onto_start, ← ofCall, onto_run] at hleads
  exact hleads

/-! ### Calls from outside -/

/-- A machine that comes to the end of its call has been carried there. -/
theorem Leads.call_eq {x : Except Panic Reply} (h : m.Leads ⟨w, [], some x⟩) :
    m.run = ⟨w, [], some x⟩ :=
  h.run_eq.trans (Sees.ends (.refl _) rfl).2

end Machine

namespace World

open Machine

variable {w v : World} {c : Command}

/-- How a call ends is read off where its machine comes to. -/
theorem call_of_leads {x : Except Panic Reply} (h : (ofCall w c).Leads ⟨v, [], some x⟩) :
    w.call c = (x, v) := by
  rw [World.call, h.call_eq]
  rfl

/-- A command that runs nothing is carried out at once. -/
theorem call_of_not_drives (hc : c.drives = false) :
    w.call c =
      match w.perform c with
      | (.error p, v) => (.error p, v.forgetInjected)
      | (.ok x, v) => (.ok x, v) := by
  have hend : (ofCall w c).Leads (ofCall w c) := .refl _
  have hstart : ofCall w c = _ := start_of_not_drives hc
  rw [hstart] at hend
  cases h : w.perform c with
  | mk x v =>
    rw [h] at hend
    cases x <;> exact call_of_leads (hstart ▸ h ▸ hend)

/-- The world in which the kernel in the slot has lost its place. -/
def vacate (w : World) : World :=
  match w.slot with
  | none => w
  | some id => { w with slot := none }.abandon id

/-- The kernel in the slot, if there is one, is destroyed, and then the slot is cleared. -/
theorem call_teardown (w : World) :
    w.call .teardown =
      match w.slot with
      | none => (.ok .done, w)
      | some _ =>
        match { w with printers := .none }.call (.destroy .facade) with
        | (.error p, v) => (.error p, v)
        | (.ok _, v) => (.ok .done, v.vacate) := by
  have hcleared {id : KernelId} {v : World} :
      Leads ⟨v, [.clearing id], none⟩ ⟨v.vacate, [], some (.ok .done)⟩ :=
    Leads.single (List.cons_ne_nil _ _)
  split
  · have hend : ofCall w .teardown = ⟨w, [], some (.ok .done)⟩ := by
      simp only [ofCall, start, beginTeardown, *, deliver]
    exact call_of_leads (hend ▸ .refl _)
  · rename_i id hs
    have hstart : ofCall w .teardown =
        start ⟨{ w with printers := .none }, [.clearing id], none⟩ (.destroy .facade) := by
      simp only [ofCall, start, beginTeardown, reach, resolve, hs]
    have hl := leads_call { w with printers := .none } (.destroy .facade) [.clearing id] none
    rw [← hstart] at hl
    split <;> rename_i hd <;> rw [hd] at hl
    · exact call_of_leads hl
    · exact call_of_leads (hl.trans hcleared)

end World

end EventSim
