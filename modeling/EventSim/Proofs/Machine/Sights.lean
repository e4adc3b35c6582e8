import EventSim.Proofs.Machine.Termination

/-!
# What is seen of a call

A run is seen as a list of sights, each with the world after its step: an event starts, or a
command of an action has ended.  Steps in which nothing of this kind happens are not seen, and
neither is the end of the outermost call, which is told by its answer.  `World.scenes` is what is
seen of a program of calls from outside.

* `Machine.Sees`: some steps of a machine, and what is seen of them.  `Sees.ends` says that a
  machine that has come to the end of its call is the machine after the call, and that everything
  that was seen on the way is what is seen of the call.
-/

namespace EventSim

/-- What is seen of a step. -/
inductive Sight where
  /-- A timed event starts. -/
  | started (payload : Payload Action) (now : Time) (context : Context)
  /-- A teardown event starts. -/
  | unwound (action : Action) (now : Time) (context : Context)
  /-- A command of an action has ended. -/
  | answered (reply : Except Panic Reply)

namespace Machine

/-- The reply to a run loop or a destruction that ends, unless it is the outermost call. -/
def lastSight? (rest : List Frame) : Option Sight :=
  if rest.isEmpty then none else some (.answered (.ok .done))

/-- What is seen of the next step. -/
def sight? (m : Machine) : Option Sight :=
  match m.stack with
  | .body _ (x :: _) :: _ => if x.drives then none else some (.answered (m.world.perform x).1)
  | .running id :: rest =>
    match m.world.engine? id with
    | some (.builtIn _ k) =>
      match k.dequeue with
      | .started e k => some (.started e.payload k.now k.context)
      | .idle => lastSight? rest
      | .skipped .. | .past .. => none
    | _ => none
  | .destroying id :: rest =>
    match m.world.engine? id with
    | some (.builtIn _ k) =>
      match k.popTeardown with
      | some (e, k) => some (.unwound e.action k.now k.context)
      | none => lastSight? rest
    | _ => none
  | _ => none

/-- What is seen of the next step, and the world after it. -/
def glimpse (m : Machine) : List (Sight × World) := m.sight?.toList.map fun x => (x, m.step.world)

/-- What is seen of `n` steps, or of fewer if the outermost call ends before. -/
def sights : Nat → Machine → List (Sight × World)
  | 0, _ => []
  | n + 1, m => if m.stack.isEmpty then [] else m.glimpse ++ sights n m.step

/-- What is seen of the call from now on. -/
def seen (m : Machine) : List (Sight × World) := m.sights m.weight

/-- The machine comes to another one in some steps, of which this is seen. -/
inductive Sees : Machine → List (Sight × World) → Machine → Prop
  | refl (m : Machine) : Sees m [] m
  | step {m n : Machine} {l : List (Sight × World)} :
      m.stack ≠ [] → Sees m.step l n → Sees m (m.glimpse ++ l) n

variable {m n o : Machine} {l l' : List (Sight × World)}

theorem Sees.single (h : m.stack ≠ []) : m.Sees m.glimpse m.step := by
  have hs := Sees.step h (.refl m.step)
  rwa [List.append_nil] at hs

theorem Sees.trans (h : m.Sees l n) (g : n.Sees l' o) : m.Sees (l ++ l') o := by
  induction h with
  | refl => exact g
  | step hne _ ih =>
    rw [List.append_assoc]
    exact .step hne (ih g)

/-- There is one way to the end of a call. -/
theorem Sees.ends_of_le (h : m.Sees l n) (hn : n.stack = []) {i : Nat} (hi : m.weight ≤ i) :
    m.sights i = l ∧ m.steps i = n := by
  induction h generalizing i with
  | refl m =>
    refine ⟨?_, steps_of_stack hn i⟩
    cases i <;> simp [sights, hn]
  | @step m n l hne _ ih =>
    have hlt := weight_step hne
    obtain ⟨i, rfl⟩ : ∃ j, i = j + 1 := ⟨i - 1, by omega⟩
    obtain ⟨hl, hs⟩ := ih hn (i := i) (by omega)
    rw [sights, steps_of_stack_ne hne, List.isEmpty_eq_false_iff.2 hne, if_neg Bool.false_ne_true,
      hl, hs]
    exact ⟨rfl, rfl⟩

/-- **A machine at the end of its call has come there by the whole call.** -/
theorem Sees.ends (h : m.Sees l n) (hn : n.stack = []) : m.seen = l ∧ m.run = n :=
  h.ends_of_le hn (Nat.le_refl _)

theorem sees_steps (i : Nat) (m : Machine) : m.Sees (m.sights i) (m.steps i) := by
  induction i generalizing m with
  | zero => exact .refl m
  | succ i ih =>
    by_cases hm : m.stack = []
    · rw [steps_of_stack hm, sights, hm]
      exact .refl m
    · rw [sights, steps_of_stack_ne hm, List.isEmpty_eq_false_iff.2 hm,
        if_neg Bool.false_ne_true]
      exact .step hm (ih m.step)

theorem sees_run (m : Machine) : m.Sees m.seen m.run := sees_steps _ m

theorem Sees.seen_eq (h : m.Sees l n) : m.seen = l ++ n.seen ∧ m.run = n.run :=
  (h.trans n.sees_run).ends n.stack_run

theorem Sees.weight_le (h : m.Sees l n) : n.weight ≤ m.weight := by
  induction h with
  | refl => exact Nat.le_refl _
  | step hne _ ih => exact Nat.le_of_lt (Nat.lt_of_le_of_lt ih (weight_step hne))

theorem Sees.weight_lt (h : m.Sees l n) (hne : m ≠ n) : n.weight < m.weight := by
  cases h with
  | refl => exact absurd rfl hne
  | step hm h => exact Nat.lt_of_le_of_lt h.weight_le (weight_step hm)

/-- A step that is not seen makes no difference. -/
theorem seen_of_silent (hm : m.stack ≠ []) (hs : m.sight? = none) :
    m.seen = m.step.seen ∧ m.run = m.step.run := by
  obtain ⟨hseen, hrun⟩ := (Sees.single hm).seen_eq
  rw [glimpse, hs] at hseen
  exact ⟨hseen, hrun⟩

/-- Machines that come to the same by a step that is seen alike are seen alike. -/
theorem seen_congr (hm : m.stack ≠ []) (hn : n.stack ≠ []) (hs : m.sight? = n.sight?)
    (h : m.step = n.step) : m.seen = n.seen ∧ m.run = n.run := by
  obtain ⟨hmseen, hmrun⟩ := (Sees.single hm).seen_eq
  obtain ⟨hnseen, hnrun⟩ := (Sees.single hn).seen_eq
  rw [hmseen, hmrun, hnseen, hnrun, glimpse, glimpse, hs, h]
  exact ⟨rfl, rfl⟩

end Machine

/-! ### Programs -/

/-- What is seen of a call from outside. -/
structure Scene where
  seen : List (Sight × World)
  answer : Except Panic Reply
  after : World

/-- The times at which events start. -/
def Scene.starts (x : Scene) : List Time :=
  x.seen.filterMap fun y => match y.1 with
    | .started _ now _ => some now
    | _ => none

namespace World

/-- What is seen of a call. -/
def scene (w : World) (x : Command) : Scene :=
  ⟨(Machine.ofCall w x).seen, (w.call x).1, (w.call x).2⟩

/-- What is seen of a program of calls, one after the other. -/
def scenes (w : World) : List Command → List Scene
  | [] => []
  | x :: rest => w.scene x :: (w.call x).2.scenes rest

end World

end EventSim
