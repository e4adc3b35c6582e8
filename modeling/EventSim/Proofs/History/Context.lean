import EventSim.Proofs.Machine.Executions

/-!
# The context over the life of a kernel

`Permitted.innermost_context` says what the context of a kernel is whenever its run loop is not
about to go on, in every history in which no panic unwinds an action or a run loop: **it is that of
the innermost timed event that is being carried out, unless a nested run loop has ended since this
event started, and otherwise none**.
-/

namespace EventSim

namespace History

open Machine

variable {environment : Option String} {l : List Move} {p : Command → Prop} {id : KernelId}

/-- The timed events of a kernel that are being carried out, the innermost first. -/
def executions (environment : Option String) (id : KernelId) : List Move → List Execution
  | [] => []
  | x :: l => (after environment l).advance id x (executions environment id l)

/-- No panic unwinds an action or a run loop. -/
def Undisturbed (environment : Option String) : List Move → Prop
  | [] => True
  | x :: l => (after environment l).Spares x ∧ Undisturbed environment l

theorem Permitted.attuned (h : Permitted p environment l) (hu : Undisturbed environment l)
    (id : KernelId) : Attuned id (after environment l) (executions environment id l) := by
  induction l with
  | nil => exact attuned_pristine environment id
  | cons x l ih => exact (ih h.2 hu.2).make h.1 hu.1

/-- **The context is that of the innermost timed event that is being carried out, unless a nested
run loop has ended since it started, and otherwise none.** -/
theorem Permitted.innermost_context (h : Permitted p environment l) (hu : Undisturbed environment l)
    (hr : ∀ rest, (after environment l).stack ≠ .running id :: rest) :
    (after environment l).world.contextAt id =
      match executions environment id l with
      | [] => noContext
      | y :: _ => if y.interrupted then noContext else y.event.key.context := by
  have hruns : ¬ Runs id (roles (after environment l).stack) := fun hruns => by
    obtain ⟨rest, hs⟩ := runs_roles.1 hruns
    exact hr rest hs
  rw [(h.attuned hu id).context hruns]
  cases executions environment id l <;> rfl

/-- An event under the context 7 has just run its kernel once more and goes on. -/
def nestedRun : List Move :=
  let t : Target := .kernel (.numbered 0)
  [.step, .step, .step, .call (.run t),
    .call (.schedule t (.under 7 (.clamp 1)) (.numbered 1) (.silent [.run t, .query t .context])),
    .call (.build none (.builtIn 0))]

theorem permitted_nestedRun : Permitted Command.Lawful none nestedRun := by
  simp only [nestedRun, Permitted, Allows]
  refine ⟨trivial, trivial, trivial, ⟨rfl, ?_⟩, ⟨rfl, ?_⟩, ⟨rfl, ?_⟩, trivial⟩
  all_goals simp [Command.All, Action.silent, Action.All, allOf, Command.Lawful]

theorem undisturbed_nestedRun : Undisturbed none nestedRun := by
  refine ⟨?_, ?_, ?_, ?_, ?_, ?_, trivial⟩
  all_goals exact spares_of_calm nofun (rfl)

/-- The event is still being carried out, and its context is gone. -/
theorem innermost_context_nestedRun :
    (executions none 0 nestedRun).map (fun y => (y.event.key.context, y.interrupted)) =
      [(7, true)] ∧
    (after none nestedRun).world.contextAt 0 = noContext := by
  have hexecutions : (executions none 0 nestedRun).map
      (fun y => (y.event.key.context, y.interrupted)) = [(7, true)] := rfl
  refine ⟨hexecutions, ?_⟩
  have hstack : (after none nestedRun).stack.head?.map Frame.role = some .body := rfl
  rw [permitted_nestedRun.innermost_context undisturbed_nestedRun fun rest hs => by
    rw [hs] at hstack
    cases hstack]
  cases hl : executions none 0 nestedRun with
  | nil => rfl
  | cons y older =>
    rw [hl] at hexecutions
    have hi : y.interrupted = true := (Prod.mk.inj (List.cons.inj hexecutions).1).2
    simp [hi]

end History

end EventSim
