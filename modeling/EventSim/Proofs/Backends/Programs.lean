import EventSim.Proofs.Machine.Carries

/-!
# Programs without the calls that attach schedulers

`Command.unattached` takes the calls that attach schedulers out of everything that a command
carries, `unattachedAll` takes them out of a list of commands as well.  Two programs that become the
same thereby differ in nothing but such calls, which may stand at different places and name
different backends.

A program `OfKernels` calls kernels and nothing else, and attaches built-in backends only.
-/

namespace EventSim

namespace Command

/-- The command attaches a scheduler to a kernel. -/
def attaches : Command → Bool
  | .attach .. => true
  | _ => false

end Command

mutual

/-- The command without the calls in its action that attach schedulers. -/
def Command.unattached : Command → Command
  | .schedule t timing name a => .schedule t timing name a.unattached
  | .scheduleEach t delays name a => .scheduleEach t delays name a.unattached
  | c => c

/-- The action without calls that attach schedulers. -/
def Action.unattached : Action → Action
  | .mk tag reporting target body => .mk tag reporting target (unattachedAll body)

/-- The commands without those that attach schedulers, in their actions too. -/
def unattachedAll : List Command → List Command
  | [] => []
  | c :: rest => if c.attaches then unattachedAll rest else c.unattached :: unattachedAll rest

end

/-! ### What is left as it was -/

namespace Action

@[simp] theorem tag_unattached (a : Action) : a.unattached.tag = a.tag := by
  cases a
  rw [unattached]
  rfl

@[simp] theorem reporting_unattached (a : Action) : a.unattached.reporting = a.reporting := by
  cases a
  rw [unattached]
  rfl

@[simp] theorem target_unattached (a : Action) : a.unattached.target = a.target := by
  cases a
  rw [unattached]
  rfl

@[simp] theorem body_unattached (a : Action) : a.unattached.body = unattachedAll a.body := by
  cases a
  rw [unattached, body, body]

theorem unattached_numbered (a : Action) (i : Nat) :
    (a.numbered i).unattached = a.unattached.numbered i := by
  cases a
  simp only [unattached, numbered, tag, reporting, target, body]

end Action

namespace Command

@[simp] theorem attaches_unattached (c : Command) : c.unattached.attaches = c.attaches := by
  cases c <;> rfl

@[simp] theorem name_unattached (c : Command) : c.unattached.name = c.name := by
  cases c <;> rfl

@[simp] theorem settles_unattached (c : Command) : c.unattached.settles = c.settles := by
  rw [settles, settles, name_unattached]

end Command

/-- The actions of a chain attach nothing. -/
theorem unattached_link (t : Target) (tag : String) (delay : Time) (left : Nat)
    (name : HandleName) :
    (World.link t tag delay left name).unattached = World.link t tag delay left name := by
  simp [World.link, Action.unattached, unattachedAll, Command.attaches, Command.unattached]

mutual

theorem Command.unattached_unattached : ∀ c : Command, c.unattached.unattached = c.unattached
  | .schedule .. => by
    simp only [Command.unattached, Action.unattached_unattached]
  | .scheduleEach .. => by
    simp only [Command.unattached, Action.unattached_unattached]
  | .chain .. | .idle | .stopAfter .. | .cancel .. | .remove .. | .isExpired .. | .delayLeft ..
  | .run _ | .stop _ | .destroy _ | .attach .. | .query .. | .inspect _ | .same .. | .forge ..
  | .build .. | .panic _ | .isPopulated | .attachNamed _ | .install _ | .teardown | .scenario _
  | .config _ | .registry _ | .printing _ | .trace _ | .observe _ | .observations | .capture
  | .isStored _ | .backendName _ => by
    simp only [Command.unattached]

theorem Action.unattached_unattached : ∀ a : Action, a.unattached.unattached = a.unattached
  | .mk _ _ _ _ => by
    simp only [Action.unattached, unattachedAll_unattachedAll]

theorem unattachedAll_unattachedAll :
    ∀ l : List Command, unattachedAll (unattachedAll l) = unattachedAll l
  | [] => rfl
  | c :: rest => by
    rw [unattachedAll]
    split
    · exact unattachedAll_unattachedAll rest
    · rename_i hc
      rw [unattachedAll, Command.attaches_unattached, if_neg hc, Command.unattached_unattached,
        unattachedAll_unattachedAll rest]

end

theorem attaches_of_mem_unattachedAll {x : Command} {l : List Command}
    (h : x ∈ unattachedAll l) : x.attaches = false := by
  induction l with
  | nil => cases h
  | cons c rest ih =>
    rw [unattachedAll] at h
    split at h
    · exact ih h
    · rename_i hc
      rcases List.mem_cons.1 h with rfl | h
      · rw [Command.attaches_unattached]
        exact Bool.eq_false_iff.2 hc
      · exact ih h

/-! ### Programs of kernel calls -/

/-- The target is a kernel. -/
def Target.IsKernel : Target → Prop
  | .facade => False
  | .kernel _ => True

/-- Who is asked for the present when the action starts, if anyone is, is a kernel. -/
def Action.Local (a : Action) : Prop := a.tag = none ∨ a.target.IsKernel

/-- The command calls a kernel, or does not call anything; backends are attached to kernels whose
number is known only, and only built-in ones. -/
def Command.OfKernels (known : Nat → Prop) : Command → Prop
  | .schedule t _ _ a | .scheduleEach t _ _ a => t.IsKernel ∧ a.Local
  | .chain t .. | .stopAfter t .. | .cancel t _ | .remove t _ | .isExpired t _ | .delayLeft t _
  | .run t | .stop t | .destroy t | .query t _ => t.IsKernel
  | .attach t b => (∃ n, known n ∧ t = .kernel (.numbered n)) ∧ b.isBuiltIn = true
  | .idle | .inspect _ | .same .. | .forge .. | .panic _ => True
  | _ => False

/-- The action and all that it carries call kernels only. -/
def Action.OfKernels (known : Nat → Prop) (a : Action) : Prop :=
  a.Local ∧ a.All (Command.OfKernels known)

variable {known : Nat → Prop}

/-- What a program of kernel calls puts into a kernel calls kernels only. -/
theorem Command.All.ofKernels {c : Command} {a : Action} (h : c.All (Command.OfKernels known))
    (hc : c.Carries a) : a.OfKernels known := by
  refine ⟨?_, h.carries hc⟩
  have hself := h.self
  cases c with
  | schedule t timing name b =>
    cases hc
    exact hself.2
  | scheduleEach t delays name b =>
    obtain ⟨i, rfl⟩ := hc
    rcases hself.2 with hb | hb
    · left
      show Option.map _ b.tag = none
      rw [hb]
      rfl
    · exact .inr hb
  | chain t tag delay length name =>
    cases length with
    | zero => exact hc.elim
    | succ left =>
      cases hc
      exact .inr hself
  | _ => exact hc.elim

end EventSim
