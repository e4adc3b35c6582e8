import EventSim.Proofs.Backends.Moments
import EventSim.Proofs.Kernel.Tallies
import EventSim.Proofs.Machine.Termination
import EventSim.Proofs.Refusals.Programs

/-!
# Stories

The story of a program has a chapter for each step of each of its calls, and one for the end of the
call.  A chapter says what happens, if it is something that programs can tell apart, and what the
journal is told: an event starts, with its number, its action, the present and the context; a call
that an action or the program makes ends, with its reply.

`repliesIn` reads off a story how the call at each place has ended.  `Chapter.purged` leaves out
the chapters of the calls that were refused, and the refused calls in all that is still to be
carried out.
-/

namespace EventSim

/-- What happens in a step. -/
inductive Incident where
  /-- An event of a kernel starts. -/
  | started (kernel : KernelId) (item : Item Action) (now : Time) (context : Context)
  /-- A call has ended, and so many are to follow it there. -/
  | ended (origin : Origin) (call : Command) (left : List Command) (reply : Except Panic Reply)
  /-- A call inside of an action has run a kernel or destroyed it, and comes back. -/
  | returned (origin : Origin) (call : String) (left : List Command)

/-- What is told of a step. -/
structure Chapter where
  incident : Option Incident
  told : List Entry

/-- The event whose action starts. -/
def Incident.onset? : Incident → Option (KernelId × Nat)
  | .started id i _ _ => i.payload.action?.map fun _ => (id, i.uid)
  | _ => none

/-- The reply to the call at a place, if this chapter tells it. -/
def Chapter.replyAt (x : Chapter) (origin : Origin) (n : Nat) : Option Reply :=
  match x.incident with
  | some (.ended o _ left reply) => if o = origin ∧ left.length = n then reply.toOption else none
  | _ => none

/-- How the calls of a story have ended. -/
def repliesIn (story : List Chapter) : Replies := fun origin n =>
  story.findSome? fun x => x.replyAt origin n

/-- A chapter that tells a reply tells of the call at the place. -/
theorem Chapter.ended_of_replyAt {x : Chapter} {o : Origin} {n : Nat} (h : x.replyAt o n ≠ none) :
    ∃ c left reply, x.incident = some (.ended o c left reply) ∧ n = left.length := by
  unfold replyAt at h
  split at h
  · rename_i origin c left reply hi
    by_cases hplace : origin = o ∧ left.length = n
    · obtain ⟨rfl, rfl⟩ := hplace
      exact ⟨c, left, reply, hi, rfl⟩
    · exact absurd (if_neg hplace) h
  · exact absurd rfl h

/-! ### Stories of machines -/

namespace Machine

/-- The call that waits on the stack comes back. -/
def returned? (events : List (KernelId × Nat)) : List Frame → Option Incident
  | .answering _ command left :: _ => some (.returned events.head? command left)
  | _ => none

/-- What happens in the next step. The bodies on the stack belong to the given events. -/
def incident? (m : Machine) (events : List (KernelId × Nat)) : Option Incident :=
  match m.stack with
  | .body _ (c :: left) :: _ =>
    if c.drives then none else some (.ended events.head? c left (m.world.perform c).1)
  | .running id :: rest =>
    match m.world.engine? id with
    | some (.builtIn _ k) =>
      match k.dequeue with
      | .started e k => some (.started k.id e.item k.now k.context)
      | .idle => returned? events rest
      | .skipped .. | .past .. => none
    | _ => returned? events rest
  | .destroying id :: rest =>
    match m.world.engine? id with
    | some (.builtIn _ k) =>
      match k.popTeardown with
      | some (e, k) => some (.started k.id e.item k.now k.context)
      | none => returned? events rest
    | _ => returned? events rest
  | _ => none

/-- The events whose actions are on the stack after the next step. -/
def events (m : Machine) (events : List (KernelId × Nat)) : List (KernelId × Nat) :=
  match m.stack with
  | .body _ [] :: _ => events.tail
  | _ => ((m.incident? events).bind Incident.onset?).toList ++ events

/-- What is told of the next step. -/
def chapter (m : Machine) (events : List (KernelId × Nat)) : Chapter :=
  ⟨m.incident? events, m.step.world.newsSince m.world.journal⟩

/-- What is told of `n` steps, or of fewer if the outermost call ends before. -/
def story : Nat → Machine → List (KernelId × Nat) → List Chapter
  | 0, _, _ => []
  | n + 1, m, events =>
    if m.stack.isEmpty then [] else m.chapter events :: story n m.step (m.events events)

/-- What may happen in the next step, and where it comes from. -/
inductive Occurs (m : Machine) (events : List (KernelId × Nat)) : Option Incident → Prop
  | nothing : Occurs m events none
  | returned (o : Origin) (command : String) (left : List Command) :
      Occurs m events (some (.returned o command left))
  | ended {reporting : Bool} {c : Command} {left : List Command} {rest : List Frame} :
      m.stack = .body reporting (c :: left) :: rest → c.drives = false →
      Occurs m events (some (.ended events.head? c left (m.world.perform c).1))
  | started {id : KernelId} {watched : Bool} {k k' : Kernel Action} {d : Deed Action}
      {i : Item Action} (now : Time) (context : Context) :
      m.world.engine? id = some (.builtIn watched k) → k.Does d k' → d.accepted = [] →
      d.invoked = [i] → Occurs m events (some (.started k'.id i now context))

theorem occurs (m : Machine) (events : List (KernelId × Nat)) :
    m.Occurs events (m.incident? events) := by
  obtain ⟨w, stack, result⟩ := m
  have hreturned (s : List Frame) : Occurs ⟨w, stack, result⟩ events (returned? events s) := by
    unfold returned?
    split
    · exact .returned ..
    · exact .nothing
  rcases stack with _ | ⟨f, rest⟩
  · exact .nothing
  · cases f with
    | body reporting left =>
      rcases left with _ | ⟨c, left⟩
      · exact .nothing
      · dsimp only [incident?]
        split
        · exact .nothing
        · rename_i hd
          exact .ended rfl (Bool.eq_false_iff.2 hd)
    | running id =>
      dsimp only [incident?]
      split
      · rename_i he
        split
        · rename_i hq
          exact .started _ _ he (.started hq) rfl rfl
        · exact hreturned rest
        · exact .nothing
        · exact .nothing
      · exact hreturned rest
    | destroying id =>
      dsimp only [incident?]
      split
      · rename_i he
        split
        · rename_i hq
          exact .started _ _ he (.unwound hq) rfl rfl
        · exact hreturned rest
      · exact hreturned rest
    | answering | clearing | scenario => exact .nothing

/-- Only the next call of a body ends in a step. -/
theorem incident?_eq_ended {m : Machine} {events : List (KernelId × Nat)} {o : Origin}
    {c : Command} {left : List Command} {reply : Except Panic Reply}
    (h : m.incident? events = some (.ended o c left reply)) :
    ∃ reporting rest, m.stack = .body reporting (c :: left) :: rest ∧ c.drives = false ∧
      o = events.head? ∧ reply = (m.world.perform c).1 := by
  have hoccurs := m.occurs events
  rw [h] at hoccurs
  cases hoccurs with
  | ended hs hd => exact ⟨_, _, hs, hd, rfl, rfl⟩

/-- A call that comes back starts no action. -/
theorem onset_returned (events : List (KernelId × Nat)) (s : List Frame) :
    ((returned? events s).bind Incident.onset?).toList = [] := by
  unfold returned?
  split <;> rfl

/-- A call that starts or ends starts no action. -/
theorem events_of_call {w : World} {reporting : Bool} {x : Command} {left : List Command}
    {rest : List Frame} {result : Option (Except Panic Reply)} (events : List (KernelId × Nat)) :
    Machine.events ⟨w, .body reporting (x :: left) :: rest, result⟩ events = events := by
  unfold Machine.events
  dsimp only [Machine.incident?]
  split <;> rfl

end Machine

namespace World

/-- How a call from outside ends, and what was told as it started. -/
def ending (w : World) (c : Command) (rest : List Command) : Chapter :=
  ⟨some (.ended none c rest (w.call c).1), (Machine.ofCall w c).world.newsSince w.journal⟩

/-- The story of a program. -/
def story (w : World) : List Command → List Chapter
  | [] => []
  | c :: rest =>
    let m := Machine.ofCall w c
    m.story m.weight [] ++ w.ending c rest :: (w.call c).2.story rest

/-- The program without the calls that are refused in it. -/
def unrefused (w : World) (P : List Command) : List Command :=
  purgedAll (repliesIn (w.story P)) none P

end World

/-! ### Stories without refused calls -/

/-- The event without the calls in its action that were refused. -/
def Item.purged (T : Replies) (id : KernelId) (i : Item Action) : Item Action :=
  ⟨i.uid, i.payload.map fun a => a.purged T (id, i.uid)⟩

/-- What happens without refused calls, if anything. -/
def Incident.purged (T : Replies) : Incident → Option Incident
  | .started id i now context => some (.started id (i.purged T id) now context)
  | .ended origin call left reply =>
    match reply with
    | .ok (.refused _) => none
    | reply =>
      some (.ended origin (call.purged T reply.toOption) (purgedAll T origin left) reply)
  | .returned origin call left => some (.returned origin call (purgedAll T origin left))

/-- The chapter without refused calls, unless it tells of one. -/
def Chapter.purged (T : Replies) (x : Chapter) : Option Chapter :=
  match x.incident with
  | none => some x
  | some i => (i.purged T).map fun i => ⟨some i, x.told⟩

end EventSim
