import EventSim.Proofs.Kernel.Accounts
import EventSim.Proofs.Machine.History

/-!
# The stack and the actions that start

The stack changes at its top alone: frames are pushed, one is popped, or the topmost one goes on.  A
`Role` is what remains of a frame if it does not matter how far it has come, so a frame that goes on
keeps its role.

`Machine.launches` reads the actions that start off the notes of a move.  `make_of_mem_launches`
says that such an action starts indeed, and `executing_make` that **nothing else brings an action
onto the stack**.
-/

namespace EventSim

/-- What a frame is the rest of. -/
inductive Role where
  | body
  | running (id : KernelId)
  | destroying (id : KernelId)
  | clearing (found : KernelId)
  | scenario
  deriving DecidableEq

/-- What a frame is the rest of. -/
def Frame.role : Frame → Role
  | .body .. | .answering .. => .body
  | .running id => .running id
  | .destroying id => .destroying id
  | .clearing found => .clearing found
  | .scenario .. => .scenario

/-- The roles of the frames of a stack. -/
def roles (stack : List Frame) : List Role := stack.map Frame.role

namespace Machine

/-- A panic has ended the call. -/
def Panicked (m : Machine) : Prop := m.stack = [] ∧ ∃ p, m.result = some (.error p)

/-- Frames were pushed on the roles `s`, but no action. -/
def Extends (s : List Role) (n : Machine) : Prop :=
  n.Panicked ∨ ∃ new, roles n.stack = new ++ s ∧ .body ∉ new

/-- The actions that start with a move. -/
def launches (m : Machine) (x : Move) : List Action :=
  (m.notes x).flatMap fun p => p.2.invoked.filterMap fun i => i.payload.action?

/-- The number of actions that are being carried out. -/
def executing (m : Machine) : Nat := (roles m.stack).count .body

variable {m : Machine} {w : World} {stack rest : List Frame}
  {result : Option (Except Panic Reply)} {id : KernelId} {x : Move} {s : List Role} {a : Action}

/-! ### Ends and starts of calls -/

theorem panicked_panic (p : Panic) : (panic ⟨w, stack, result⟩ p).Panicked := ⟨rfl, p, rfl⟩

/-- A frame that gets the reply it waits for keeps its role. -/
theorem roles_deliver (r : Reply) : roles (deliver ⟨w, stack, result⟩ r).stack = roles stack := by
  unfold deliver
  dsimp only
  split
  · rfl
  · rfl
  · split <;> rfl
  · rfl

theorem extends_same {n : Machine} (h : roles n.stack = s) : Extends s n :=
  .inr ⟨[], h, List.not_mem_nil⟩

theorem extends_cons {n : Machine} {role : Role} (hr : role ≠ .body) (h : Extends (role :: s) n) :
    Extends s n := by
  rcases h with h | ⟨new, h, hb⟩
  · exact .inl h
  · refine .inr ⟨new ++ [role], ?_, ?_⟩
    · rw [h, List.append_assoc, List.singleton_append]
    · simp [hb, hr.symm]

theorem extends_beginRun (id : KernelId) :
    Extends (roles stack) (beginRun ⟨w, stack, result⟩ id) := by
  unfold beginRun
  split
  · have hr : Role.running id ≠ .body := nofun
    exact extends_cons hr (extends_same rfl)
  · exact extends_same (roles_deliver _)

theorem extends_beginDestroy (id : KernelId) :
    Extends (roles stack) (beginDestroy ⟨w, stack, result⟩ id) := by
  unfold beginDestroy
  split
  · have hr : Role.destroying id ≠ .body := nofun
    exact extends_cons hr (extends_same rfl)
  · exact extends_same (roles_deliver _)

theorem extends_beginTeardown : Extends (roles stack) (beginTeardown ⟨w, stack, result⟩) := by
  unfold beginTeardown
  split
  · exact extends_same (roles_deliver _)
  · rename_i id _
    have hr : Role.clearing id ≠ .body := nofun
    exact extends_cons hr (extends_beginDestroy id)

theorem extends_start (c : Command) : Extends (roles stack) (start ⟨w, stack, result⟩ c) := by
  unfold start
  split
  · split
    · exact .inl (panicked_panic _)
    · exact extends_beginRun _
  · split
    · exact .inl (panicked_panic _)
    · exact extends_beginDestroy _
  · exact extends_beginTeardown
  · split
    · exact extends_same (roles_deliver _)
    · have hr : Role.scenario ≠ .body := nofun
      exact extends_cons hr extends_beginTeardown
  · split
    · exact .inl (panicked_panic _)
    · exact extends_same (roles_deliver _)

/-! ### Actions that start -/

theorem roles_startAction (w : World) (stack : List Frame)
    (result : Option (Except Panic Reply)) (a : Action) :
    (startAction ⟨w, stack, result⟩ a).Panicked ∨
      roles (startAction ⟨w, stack, result⟩ a).stack = .body :: roles stack := by
  rcases stack_startAction w stack result a with h | ⟨h, hr⟩
  · exact .inr (congrArg roles h)
  · exact .inl ⟨h, hr⟩

/-- A move that does no deed of its own starts no action. -/
theorem launches_of_no_turn (h : m.turn? x = none) : m.launches x = [] := by
  refine List.flatMap_eq_nil_iff.2 fun p hp => ?_
  obtain ⟨id, n⟩ := p
  rcases mem_notes hp with ⟨q, -, hq⟩ | ⟨_, _, rfl⟩ | ⟨-, _, _, ht, -⟩
  · obtain ⟨_, -, -, rfl⟩ := note?_eq_some hq
    rfl
  · rfl
  · rw [h] at ht
    cases ht

/-- The actions that start with a deed of a kernel. -/
theorem launches_of_turn {k : Kernel Action} {d : Deed Action} (ht : m.turn? x = some (id, d))
    (hk : m.world.kernel? id = some k) : m.launches x =
      (k.note? d).toList.flatMap fun n => n.invoked.filterMap fun i => i.payload.action? := by
  have ho : m.onset? x = none := (onset?_or_turn? m x).resolve_right (by simp [ht])
  rw [launches, notes, ho, ht]
  simp only [Option.elim_none, Option.elim_some, List.nil_append, World.noted, hk, Option.bind_some]
  cases k.note? d <;> rfl

/-- What a move can be to the stack. -/
inductive Passes (m : Machine) (x : Move) : Prop
  | launched (w : World) (a : Action) : m.launches x = [a] →
      m.make x = startAction ⟨w, m.stack, m.result⟩ a → Passes m x
  | extended : m.launches x = [] → Extends (roles m.stack) (m.make x) → Passes m x
  | popped : m.launches x = [] → roles (m.make x).stack = (roles m.stack).tail → Passes m x
  | unwound (frames : Nat) : x = .unwind frames → Passes m x

/-- The actions that start with the next deed of a run loop. -/
theorem launches_running {watched : Bool} {k : Kernel Action}
    (he : w.engine? id = some (.builtIn watched k)) :
    launches ⟨w, .running id :: rest, result⟩ .step =
      (k.note? k.dequeue.deed).toList.flatMap fun n =>
        n.invoked.filterMap fun i => i.payload.action? :=
  launches_of_turn (turn?_running he) (World.kernel?_eq_some.2 ⟨watched, he⟩)

/-- The actions that start with the next deed of a destruction. -/
theorem launches_destroying {watched : Bool} {k : Kernel Action}
    (he : w.engine? id = some (.builtIn watched k)) :
    launches ⟨w, .destroying id :: rest, result⟩ .step =
      (k.note? k.unwinding).toList.flatMap fun n =>
        n.invoked.filterMap fun i => i.payload.action? :=
  launches_of_turn (turn?_destroying he) (World.kernel?_eq_some.2 ⟨watched, he⟩)

theorem passes_running : Passes ⟨w, .running id :: rest, result⟩ .step := by
  have ht := runTurn_stepRun w id (.running id :: rest) rest result
  generalize hmake : stepRun ⟨w, .running id :: rest, result⟩ id rest = n at ht
  have hmake : make ⟨w, .running id :: rest, result⟩ .step = n := hmake
  cases ht with
  | absent hne =>
    refine .popped (launches_of_no_turn (turn?_running_of_none (World.kernel?_eq_none hne))) ?_
    rw [hmake, roles_deliver]
    rfl
  | ended he hq =>
    refine .popped ((launches_running he).trans ?_) (by rw [hmake, roles_deliver]; rfl)
    rw [hq]
    rfl
  | @skipped watched k _ _ he hq =>
    refine .extended ((launches_running he).trans ?_) (extends_same (by rw [hmake]))
    rw [hq, Dequeued.deed, Kernel.note?]
    cases k.scheduler.pop <;> rfl
  | @strayed watched k _ _ he hq =>
    refine .extended ((launches_running he).trans ?_) (.inl (hmake ▸ panicked_panic _))
    rw [hq, Dequeued.deed, Kernel.note?]
    cases k.scheduler.pop <;> rfl
  | halted he hq hp =>
    refine .extended ((launches_running he).trans ?_) (extends_same (by rw [hmake]))
    simp [hq, Dequeued.deed, Kernel.note?, Note.invoked, Event.item, hp, Payload.action?]
  | launched he hq hp =>
    refine .launched _ _ ((launches_running he).trans ?_) hmake
    simp [hq, Dequeued.deed, Kernel.note?, Note.invoked, Event.item, hp, Payload.action?]

theorem passes_destroying : Passes ⟨w, .destroying id :: rest, result⟩ .step := by
  have ht := destroyTurn_stepDestroy w id (.destroying id :: rest) rest result
  generalize hmake : stepDestroy ⟨w, .destroying id :: rest, result⟩ id rest = n at ht
  have hmake : make ⟨w, .destroying id :: rest, result⟩ .step = n := hmake
  cases ht with
  | absent hne =>
    refine .popped (launches_of_no_turn (turn?_destroying_of_none (World.kernel?_eq_none hne))) ?_
    rw [hmake, roles_deliver]
    rfl
  | unwound he hq =>
    refine .launched _ _ ((launches_destroying he).trans ?_) hmake
    rw [Kernel.unwinding, hq]
    rfl
  | swept he hq =>
    refine .popped ((launches_destroying he).trans ?_) (by rw [hmake, roles_deliver]; rfl)
    rw [Kernel.unwinding, hq]
    rfl

theorem passes_clearing {found : KernelId} :
    Passes ⟨w, .clearing found :: rest, result⟩ .step := by
  refine .popped ?_ (roles_deliver _)
  cases ht : turn? ⟨w, .clearing found :: rest, result⟩ .step with
  | none => exact launches_of_no_turn ht
  | some p =>
    obtain ⟨id, d⟩ := p
    obtain ⟨j, -, heq⟩ := Option.bind_eq_some_iff.1 ht
    split at heq <;> cases heq
    cases hk : w.kernel? id with
    | none =>
      rw [launches, notes, ht]
      simp [onset?, World.noted, hk]
    | some k => exact launches_of_turn ht hk

theorem extends_stepScenario {run : ScenarioRun} {stage : ScenarioStage} :
    Extends (.scenario :: roles rest)
        (stepScenario ⟨w, .scenario run stage :: rest, result⟩ run stage rest) ∨
      roles (stepScenario ⟨w, .scenario run stage :: rest, result⟩ run stage rest).stack =
        roles rest := by
  unfold stepScenario
  split
  · refine .inl ?_
    unfold stepOpened
    split
    · exact .inl (panicked_panic _)
    · split
      · exact .inl (panicked_panic _)
      · exact extends_same rfl
      · exact extends_same rfl
  · exact .inl (extends_same rfl)
  · exact .inl (extends_start _)
  · exact .inl (extends_same rfl)
  · exact .inl extends_beginTeardown
  · unfold stepRestore
    split
    · exact .inl (.inl (panicked_panic _))
    · exact .inr (roles_deliver _)

/-- **What a move can be to the stack.** -/
theorem Allows.passes {p : Command → Prop} (hx : m.Allows p x) : m.Passes x := by
  cases x with
  | call c =>
    refine .extended (launches_of_no_turn rfl) ?_
    rw [hx.1]
    exact extends_start c
  | unwind frames => exact .unwound frames rfl
  | step =>
    obtain ⟨w, stack, result⟩ := m
    cases stack with
    | nil => exact .extended (launches_of_no_turn rfl) (extends_same rfl)
    | cons f rest =>
      cases f with
      | body reporting left =>
        cases left with
        | nil => exact .popped (launches_of_no_turn rfl) rfl
        | cons c left =>
          refine .extended (launches_of_no_turn rfl) ?_
          show Extends (roles (.answering reporting c.name left :: rest)) _
          exact extends_start c
      | answering => exact .extended (launches_of_no_turn rfl) (extends_same rfl)
      | running id => exact passes_running
      | destroying id => exact passes_destroying
      | clearing found => exact passes_clearing
      | scenario run stage =>
        have h : Extends (.scenario :: roles rest) (stepScenario _ run stage rest) ∨
            roles (stepScenario ⟨w, .scenario run stage :: rest, result⟩ run stage rest).stack =
              roles rest := extends_stepScenario
        rcases h with h | h
        · exact .extended (launches_of_no_turn rfl) h
        · exact .popped (launches_of_no_turn rfl) h

/-- An action that starts with a move is next on the stack, unless somebody panics on the way. -/
theorem Allows.make_of_mem_launches {p : Command → Prop} (hx : m.Allows p x)
    (ha : a ∈ m.launches x) : ∃ w, m.make x = startAction ⟨w, m.stack, m.result⟩ a := by
  cases hx.passes with
  | launched w b hl hm =>
    rw [hl, List.mem_singleton] at ha
    exact ⟨w, ha ▸ hm⟩
  | extended hl | popped hl =>
    rw [hl] at ha
    cases ha
  | unwound frames hu =>
    subst hu
    cases ha

/-- **Nothing but an action that starts is one more to be carried out.** -/
theorem Allows.executing_make {p : Command → Prop} (hx : m.Allows p x) :
    (m.make x).executing ≤ m.executing + (m.launches x).length := by
  unfold executing
  have hpanicked {n : Machine} {c : Nat} (hn : n.Panicked) : (roles n.stack).count .body ≤ c := by
    rw [hn.1]
    exact Nat.zero_le c
  cases hx.passes with
  | launched w a hl hm =>
    rw [hl, hm]
    rcases roles_startAction w m.stack m.result a with h | h
    · exact hpanicked h
    · rw [h, List.count_cons_self]
      exact Nat.le_refl _
  | extended hl h =>
    rcases h with h | ⟨new, h, hb⟩
    · exact hpanicked h
    · rw [h, List.count_append, List.count_eq_zero.2 hb, Nat.zero_add]
      exact Nat.le_add_right _ _
  | popped hl h =>
    rw [h]
    exact Nat.le_add_right_of_le (List.Sublist.count_le _ (List.tail_sublist _))
  | unwound frames hu =>
    subst hu
    rw [make, roles, List.map_drop]
    exact Nat.le_add_right_of_le (List.Sublist.count_le _ (List.drop_sublist _ _))

end Machine

end EventSim
