import EventSim.Proofs.Backends.Moments
import EventSim.Proofs.Machine.Termination

/-!
# Backends do not matter

`World.play` carries out a program of calls from outside, one after the other, and gives an account
of each call that does not attach a scheduler.  `World.play_congr`: **two programs that differ in
nothing but calls that attach built-in schedulers, wherever these stand and whatever they attach,
have the same accounts** on fresh kernels, and leave worlds behind that are the same but for the
layout of the schedulers.
-/

namespace EventSim

namespace Machine

variable {known : Nat → Prop} {b c : List Entry} {m n : Machine}

theorem moments_of_stack (h : m.stack = []) (i : Nat) : m.moments i = [] := by
  cases i <;> simp [moments, h]

theorem Mirrors.stack_iff (h : Mirrors known b c m n) : n.stack = [] ↔ m.stack = [] := by
  obtain ⟨-, -⟩ := h
  exact List.map_eq_nil_iff

theorem Mirrors.result_eq (h : Mirrors known b c m n) : n.result = m.result := by
  obtain ⟨-, -⟩ := h
  rfl

/-- Both take a step, whatever it is, unless a scheduler is attached. -/
theorem Mirrors.step_mirrors (h : Mirrors known b c m n) (hne : m.stack ≠ [])
    (ha : m.attaches = false) : ∃ b' c', Mirrors known b' c' m.step n.step := by
  cases hw : m.sweeps with
  | false => exact ⟨b, c, h.step hne ha hw⟩
  | true =>
    obtain ⟨l, l', -, hstep⟩ := h.step_of_sweeps hw
    exact ⟨_, _, hstep⟩

/-- **Whole runs are seen alike**, if there are steps enough for both. -/
theorem Mirrors.steps {i j : Nat} (h : Mirrors known b c m n) (hi : m.weight ≤ i)
    (hj : n.weight ≤ j) :
    m.moments i = n.moments j ∧ ∃ b' c', Mirrors known b' c' (m.steps i) (n.steps j) := by
  induction i generalizing m n b c j with
  | zero =>
    have hm : m.stack = [] := stack_of_weight (Nat.le_zero.1 hi)
    rw [moments_of_stack hm, moments_of_stack (h.stack_iff.2 hm), steps_of_stack hm,
      steps_of_stack (h.stack_iff.2 hm)]
    exact ⟨rfl, b, c, h⟩
  | succ i ih =>
    by_cases hm : m.stack = []
    · rw [moments_of_stack hm, moments_of_stack (h.stack_iff.2 hm), steps_of_stack hm,
        steps_of_stack (h.stack_iff.2 hm)]
      exact ⟨rfl, b, c, h⟩
    · have hlt := weight_step hm
      have hempty : m.stack.isEmpty = false := List.isEmpty_eq_false_iff.2 hm
      rw [moments, Machine.steps, hempty]
      simp only [Bool.false_eq_true, if_false]
      cases ha : m.attaches with
      | true =>
        simp only [if_true]
        exact ih (h.step_attaches ha) (by omega) hj
      | false =>
        have hn : n.stack ≠ [] := fun hn => hm (h.stack_iff.1 hn)
        have hlt' := weight_step hn
        obtain ⟨j, rfl⟩ : ∃ j', j = j' + 1 := ⟨j - 1, by omega⟩
        obtain ⟨b', c', hstep⟩ := h.step_mirrors hm ha
        obtain ⟨hmoments, hsteps⟩ := ih (j := j) hstep (by omega) (by omega)
        have hempty' : n.stack.isEmpty = false := List.isEmpty_eq_false_iff.2 hn
        rw [moments, Machine.steps, hempty', h.attaches_eq_false]
        simp only [Bool.false_eq_true, if_false]
        exact ⟨by rw [hmoments, h.moment hm ha], hsteps⟩

end Machine

/-! ### Accounts -/

/-- What is seen of a call from outside. -/
structure Account where
  /-- What is told as the call starts. -/
  told : List Entry
  /-- The state right after its start. -/
  started : Machine
  /-- What happens until it ends. -/
  moments : List Moment
  answer : Except Panic Reply

namespace World

/-- What is seen of a call. -/
def account (w : World) (x : Command) : Account :=
  let m := Machine.ofCall w x
  ⟨m.world.newsSince w.journal, m.plain, m.moments m.weight, (w.call x).1⟩

/-- The accounts of the calls of a program that do not attach a scheduler, and the world after the
program. -/
def play (w : World) : List Command → List Account × World
  | [] => ([], w)
  | x :: rest =>
    let r := (w.call x).2.play rest
    if x.attaches then r else (w.account x :: r.1, r.2)

/-- Nothing was done to any kernel yet. -/
def Fresh (w : World) : Prop :=
  ∀ e ∈ w.engines, ∃ id systemId, e = .builtIn false (.fresh id systemId)

/-- The program has a kernel of this number. -/
def Knows (w : World) (n : Nat) : Prop := (w.named.lookup (.numbered n)).isSome = true

variable {known : Nat → Prop} {b c : List Entry} {w v : World} {P Q : List Command}

/-- Fresh kernels mirror themselves. -/
theorem Fresh.mirrors (hw : w.Fresh) : Mirrors w.Knows w.journal w.journal w w := by
  have hengines : List.Forall₂ (Engine.Mirrors w.Knows) w.engines w.engines := by
    refine List.forall₂_same.2 fun e he => ?_
    obtain ⟨id, systemId, rfl⟩ := hw e he
    exact .mk (Kernel.mirrors_fresh id systemId)
  exact .mk (j := []) hengines rfl fun n hn => Option.isSome_iff_exists.1 hn

theorem Mirrors.ofCall (m : Mirrors known b c w v) {x : Command}
    (hx : x.All (Command.OfKernels known)) (ha : x.attaches = false) :
    Machine.Mirrors known b c (Machine.ofCall w x) (Machine.ofCall v x.unattached) :=
  Machine.Mirrors.start (s := []) m (fun f hf => by cases hf) hx ha

/-- The accounts of a call are the same, and the worlds after it mirror one another. -/
theorem Mirrors.call (m : Mirrors known b c w v) {x : Command}
    (hx : x.All (Command.OfKernels known)) (ha : x.attaches = false) :
    v.account x.unattached = w.account x ∧
      ∃ b' c', Mirrors known b' c' (w.call x).2 (v.call x.unattached).2 := by
  have hstart := m.rebase.ofCall hx ha
  obtain ⟨hmoments, b', c', hrun⟩ := hstart.steps (Nat.le_refl _) (Nat.le_refl _)
  refine ⟨?_, b', c', hrun.world⟩
  obtain ⟨j, hj, hj'⟩ := Mirrors.newsSince (x := []) (y := []) hstart.world
  have hanswer : (v.call x.unattached).1 = (w.call x).1 :=
    congrArg (fun r => r.getD (.ok .done)) hrun.result_eq
  simp only [account, hmoments, hj, hj', hstart.plain, hanswer, List.reverse_nil]

/-- A call that attaches a scheduler is seen of nobody. -/
theorem Mirrors.call_attach (m : Mirrors known b c w v) {t : Target} {backend : Backend}
    (hx : Command.OfKernels known (.attach t backend)) :
    Mirrors known b c (w.call (.attach t backend)).2 v := by
  obtain ⟨w', hw', hm'⟩ := m.attach hx
  have hcall : Machine.ofCall w (.attach t backend) = ⟨w', [], some (.ok .done)⟩ := by
    rw [Machine.ofCall, Machine.start]
    · dsimp only
      rw [hw']
      rfl
    all_goals
      intros
      contradiction
  have hrun : (Machine.ofCall w (.attach t backend)).run = ⟨w', [], some (.ok .done)⟩ := by
    rw [hcall]
    exact Machine.steps_of_stack rfl _
  rw [World.call, hrun]
  exact hm'

/-- The program and the program without the calls that attach schedulers have the same accounts. -/
theorem Mirrors.play (m : Mirrors known b c w v) (hP : ∀ x ∈ P, x.All (Command.OfKernels known)) :
    (v.play (unattachedAll P)).1 = (w.play P).1 ∧
      ∃ b' c', Mirrors known b' c' (w.play P).2 (v.play (unattachedAll P)).2 := by
  induction P generalizing w v b c with
  | nil => exact ⟨rfl, b, c, m⟩
  | cons x rest ih =>
    obtain ⟨hx, hrest⟩ := List.forall_mem_cons.1 hP
    rw [unattachedAll, World.play]
    cases ha : x.attaches with
    | true =>
      cases x with
      | attach t backend =>
        simp only [if_true]
        exact ih (m.call_attach hx.self) hrest
      | _ => cases ha
    | false =>
      obtain ⟨haccount, b', c', hm⟩ := m.call hx ha
      obtain ⟨haccounts, hm'⟩ := ih hm hrest
      simp only [Bool.false_eq_true, if_false]
      rw [World.play, Command.attaches_unattached, ha]
      simp only [Bool.false_eq_true, if_false]
      exact ⟨by rw [haccount, haccounts], hm'⟩

/-- **Backends do not matter.**  On fresh kernels, two programs of kernel calls that differ in
nothing but calls that attach built-in schedulers, in actions as well as outside, have the same
accounts: every other call ends in the same way, and the same actions run in the same order at the
same times and under the same contexts. -/
theorem play_congr (hw : w.Fresh) (hP : ∀ x ∈ P, x.All (Command.OfKernels w.Knows))
    (hQ : ∀ x ∈ Q, x.All (Command.OfKernels w.Knows)) (h : unattachedAll P = unattachedAll Q) :
    (w.play P).1 = (w.play Q).1 ∧ (w.play P).2.plain = (w.play Q).2.plain := by
  obtain ⟨hp, b, c, hp'⟩ := hw.mirrors.play hP
  obtain ⟨hq, b', c', hq'⟩ := hw.mirrors.play hQ
  rw [h] at hp hp'
  exact ⟨hp.symm.trans hq, hp'.plain.symm.trans hq'.plain⟩

/-- A world with one kernel. -/
def oneKernel : World := ((pristine none).build none (.builtIn 0)).2

theorem sound_oneKernel : oneKernel.Sound :=
  ((sound_pristine none).made (.builtIn 0)).aside ⟨rfl, rfl, rfl, rfl, rfl⟩

/-- Three events, the first of which cancels the second and then does what is `inside`. -/
def cancellingProgram (outside inside : List Command) : List Command :=
  let t : Target := .kernel (.numbered 0)
  let event (n : Nat) (body : List Command) : Command :=
    .schedule t (.after (.clamp n)) (.numbered n) (.mk (some "event") true t body)
  outside ++ [event 1 (.cancel t (.numbered 2) :: inside), event 2 [], event 3 [], .run t]

/-- A heap that is attached in the middle of a run, while a cancelled event is stored, does what a
list does that is attached before. -/
theorem play_congr_cancelling :
    let heap := cancellingProgram [] [.attach (.kernel (.numbered 0)) .heap]
    let list := cancellingProgram [.attach (.kernel (.numbered 0)) .list] []
    ((oneKernel.play heap).1 = (oneKernel.play list).1 ∧
      (oneKernel.play heap).2.plain = (oneKernel.play list).2.plain) ∧
    (oneKernel.play heap).2.engines.map Engine.backendName = [some "heap"] ∧
    (oneKernel.play list).2.engines.map Engine.backendName = [some "list"] ∧
    (((oneKernel.play list).1.flatMap Account.moments).filterMap Moment.action).map
      (fun r => r.2.1) = [.clamp 1, .clamp 3] := by
  have hfresh : oneKernel.Fresh := fun e he => ⟨0, 0, List.mem_singleton.1 he⟩
  have hknows : oneKernel.Knows 0 := rfl
  refine ⟨play_congr hfresh ?_ ?_ ?_, by decide +kernel, by decide +kernel, by decide +kernel⟩
  · simp [cancellingProgram, Command.All, Action.All, allOf, Command.OfKernels, Target.IsKernel,
      Action.Local, Action.target, Backend.isBuiltIn, hknows]
  · simp [cancellingProgram, Command.All, Action.All, allOf, Command.OfKernels, Target.IsKernel,
      Action.Local, Action.target, Backend.isBuiltIn, hknows]
  · simp [cancellingProgram, unattachedAll, Command.unattached, Action.unattached,
      Command.attaches]

end World

end EventSim
