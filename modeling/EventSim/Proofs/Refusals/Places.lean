import EventSim.Proofs.Refusals.Stories
import EventSim.Proofs.World.Courses

/-!
# Places of calls

The place of a call is the event whose action makes it, together with the number of calls that
follow it there.  A place is `Open` as long as a call may still be carried out there: either the
event has not started, or its action is on the stack and has come no further.

An event starts once and for all, since its number is spent then, and a body gets shorter with each
call.  So **a place that is closed stays closed** (`Open.of_step`), and **a call closes its place**
(`not_open_of_call`).  Each chapter of a story therefore tells of a place that no other chapter
tells of, and `repliesIn` tells of every call how it ends: `World.heeded`.
-/

namespace EventSim

/-- The number of calls that are left in a body. -/
def Frame.left? : Frame → Option Nat
  | .body _ left | .answering _ _ left => some left.length
  | _ => none

namespace World

/-- A call may still be carried out there when no call is under way; `k` of them are to come from
outside. -/
def Open (w : World) (k : Nat) : Origin → Nat → Prop
  | none, n => n < k
  | some event, _ => ¬ w.Spent event

variable {w w' : World} {k n : Nat} {o : Origin}

theorem Courses.isOpen {p : KernelId → Deed Action → Prop} (h : Courses p w w') (t : w.Tallied)
    (ho : w'.Open k o n) : w.Open k o n := by
  cases o with
  | none => exact ho
  | some event => exact fun hs => ho (h.spent t hs)

theorem Open.mono {k' : Nat} (h : w.Open k o n) (hk : k ≤ k') : w.Open k' o n := by
  cases o with
  | none => exact Nat.lt_of_lt_of_le h hk
  | some event => exact h

end World

namespace Machine

open World (Courses)

/-- How many calls are left in each body on the stack. -/
def lefts (stack : List Frame) : List Nat := stack.filterMap Frame.left?

/-- The bodies on the stack have these numbers of calls left, unless somebody has panicked. -/
def Leaves (s : List Nat) (n : Machine) : Prop := n.stack = [] ∨ lefts n.stack = s

variable {m : Machine} {w : World} {stack rest : List Frame} {id : KernelId}
  {result : Option (Except Panic Reply)} {events : List (KernelId × Nat)} {s : List Nat}
  {o : Origin} {k n : Nat}

/-! ### Calls that are left -/

theorem leaves_deliver (r : Reply) : (deliver ⟨w, stack, result⟩ r).Leaves (lefts stack) := by
  right
  unfold deliver
  dsimp only
  split
  · rfl
  · rfl
  · split <;> rfl
  · rfl

theorem leaves_panic (p : Panic) : (panic ⟨w, stack, result⟩ p).Leaves s := .inl rfl

theorem leaves_startAction (a : Action) :
    (startAction ⟨w, stack, result⟩ a).Leaves (a.body.length :: lefts stack) :=
  (stack_startAction w stack result a).elim (fun h => .inr (congrArg lefts h)) fun h => .inl h.1

theorem leaves_beginRun (id : KernelId) :
    (beginRun ⟨w, stack, result⟩ id).Leaves (lefts stack) := by
  unfold beginRun
  split
  · exact .inr rfl
  · exact leaves_deliver _

theorem leaves_beginDestroy (id : KernelId) :
    (beginDestroy ⟨w, stack, result⟩ id).Leaves (lefts stack) := by
  unfold beginDestroy
  split
  · exact .inr rfl
  · exact leaves_deliver _

theorem leaves_beginTeardown : (beginTeardown ⟨w, stack, result⟩).Leaves (lefts stack) := by
  unfold beginTeardown
  split
  · exact leaves_deliver _
  · exact leaves_beginDestroy _

theorem leaves_start (c : Command) : (start ⟨w, stack, result⟩ c).Leaves (lefts stack) := by
  unfold start
  split
  · split
    · exact leaves_panic _
    · exact leaves_beginRun _
  · split
    · exact leaves_panic _
    · exact leaves_beginDestroy _
  · exact leaves_beginTeardown
  · split
    · exact leaves_deliver _
    · exact leaves_beginTeardown
  · split
    · exact leaves_panic _
    · exact leaves_deliver _

theorem leaves_stepScenario (run : ScenarioRun) (stage : ScenarioStage) :
    (stepScenario ⟨w, stack, result⟩ run stage rest).Leaves (lefts rest) := by
  unfold stepScenario
  split
  · unfold stepOpened
    split
    · exact leaves_panic _
    · split
      · exact leaves_panic _
      · exact .inr rfl
      · exact .inr rfl
  · exact .inr rfl
  · exact leaves_start _
  · exact .inr rfl
  · exact leaves_beginTeardown
  · unfold stepRestore
    split
    · exact leaves_panic _
    · exact leaves_deliver _

/-! ### Steps -/

/-- What becomes of the events whose actions are on the stack, and of the calls that are left
there. -/
inductive Turns (w : World) (events : List (KernelId × Nat)) (s : List Nat) :
    List (KernelId × Nat) → Machine → Prop
  | kept {n : Machine} : n.Leaves s → Turns w events s events n
  | started {n : Machine} {event : KernelId × Nat} (left : Nat) :
      ¬ w.Spent event → n.world.Spent event → n.Leaves (left :: s) →
      Turns w events s (event :: events) n
  | called {n : Machine} {left : Nat} {rest : List Nat} :
      s = (left + 1) :: rest → n.Leaves (left :: rest) → Turns w events s events n
  | closed {n : Machine} {left : Nat} {rest : List Nat} :
      s = left :: rest → n.Leaves rest → Turns w events s events.tail n

/-- The kernels do deeds in a step. -/
theorem courses_step (m : Machine) : Courses (fun _ _ => True) m.world m.step.world := by
  obtain ⟨w, stack, result⟩ := m
  cases stack with
  | nil => exact .of_engines rfl
  | cons f rest => exact .evolves (fun _ _ => trivial) (evolves_step f rest) fun _ _ _ => trivial

/-- So they do in a whole call. -/
theorem courses_steps (i : Nat) (m : Machine) :
    Courses (fun _ _ => True) m.world (m.steps i).world := by
  let I (m' : Machine) : Prop := Courses (fun _ _ => True) m.world m'.world
  have hstep {m' : Machine} (hm : I m') : I m'.step := World.Courses.trans hm (courses_step m')
  exact keeps_steps I hstep (World.Courses.of_engines rfl) i

theorem courses_ofCall (w : World) (c : Command) :
    Courses (fun _ _ => True) w (ofCall w c).world :=
  .evolves (fun _ _ => trivial) (evolves_start c) fun _ _ _ => trivial

/-- An event that starts has spent its number, and had not spent it before. -/
theorem spends_startAction {watched : Bool} {k k' : Kernel Action} {d : Deed Action}
    {i : Item Action} (t : w.Tallied) (hk : w.engine? id = some (.builtIn watched k))
    (hd : k.Does d k') (ha : d.accepted = []) (hi : d.invoked = [i]) (stack : List Frame)
    (result : Option (Except Panic Reply)) (a : Action) :
    ¬ w.Spent (k'.id, i.uid) ∧
      (startAction ⟨w.setEngine id (.builtIn watched k'), stack, result⟩ a).world.Spent
        (k'.id, i.uid) := by
  obtain ⟨hid, ht⟩ := t _ _ _ hk
  obtain ⟨hmem, hspent⟩ := ht.spends hd ha hi
  rw [hd.id_eq, hid]
  refine ⟨fun ⟨watched', l, hl, hs⟩ => ?_, ?_⟩
  · cases hk.symm.trans hl
    exact hs.gone i hmem rfl
  · have hdid : Courses (fun _ _ => True) w (w.setEngine id (.builtIn watched k')) :=
      .did hk hd trivial
    have hstart : Courses (fun _ _ => True) (w.setEngine id (.builtIn watched k'))
        (startAction ⟨w.setEngine id (.builtIn watched k'), stack, result⟩ a).world :=
      .evolves (fun _ _ => trivial) (evolves_startAction a) fun _ _ _ => trivial
    exact hstart.spent (hdid.tallied t) ⟨watched, k', World.engine?_setEngine_self hk _, hspent⟩

theorem turns_running (t : w.Tallied) (events : List (KernelId × Nat)) (id : KernelId)
    (rest : List Frame) (result : Option (Except Panic Reply)) :
    Turns w events (lefts rest) (Machine.events ⟨w, .running id :: rest, result⟩ events)
      (stepRun ⟨w, .running id :: rest, result⟩ id rest) := by
  unfold Machine.events stepRun
  dsimp only [incident?]
  cases he : w.engine? id with
  | none =>
    rw [onset_returned]
    exact .kept (leaves_deliver _)
  | some e =>
    cases e with
    | fixed k =>
      rw [onset_returned]
      exact .kept (leaves_deliver _)
    | builtIn watched k =>
      dsimp only
      cases hq : k.dequeue with
      | idle =>
        rw [onset_returned]
        exact .kept (leaves_deliver _)
      | skipped p k' => exact .kept (.inr rfl)
      | past p k' => exact .kept (leaves_panic _)
      | started e k' =>
        dsimp only [Option.bind_some, Incident.onset?, Event.item]
        cases hp : e.payload with
        | halt => exact .kept (.inr rfl)
        | act a =>
          obtain ⟨hbefore, hafter⟩ :=
            spends_startAction t he (.started hq) rfl rfl (.running id :: rest) result a
          exact .started _ hbefore hafter (leaves_startAction a)

theorem turns_destroying (t : w.Tallied) (events : List (KernelId × Nat)) (id : KernelId)
    (rest : List Frame) (result : Option (Except Panic Reply)) :
    Turns w events (lefts rest) (Machine.events ⟨w, .destroying id :: rest, result⟩ events)
      (stepDestroy ⟨w, .destroying id :: rest, result⟩ id rest) := by
  unfold Machine.events stepDestroy
  dsimp only [incident?]
  cases he : w.engine? id with
  | none =>
    rw [onset_returned]
    exact .kept (leaves_deliver _)
  | some e =>
    cases e with
    | fixed k =>
      rw [onset_returned]
      exact .kept (leaves_deliver _)
    | builtIn watched k =>
      dsimp only
      cases hq : k.popTeardown with
      | none =>
        rw [onset_returned]
        exact .kept (leaves_deliver _)
      | some r =>
        obtain ⟨e, k'⟩ := r
        obtain ⟨hbefore, hafter⟩ :=
          spends_startAction t he (.unwound hq) rfl rfl (.destroying id :: rest) result e.action
        exact .started _ hbefore hafter (leaves_startAction e.action)

/-- **A step starts an action, makes a call, ends an action or leaves the actions as they are.** -/
theorem turns (m : Machine) (t : m.world.Tallied) (events : List (KernelId × Nat)) :
    Turns m.world events (lefts m.stack) (m.events events) m.step := by
  obtain ⟨w, stack, result⟩ := m
  cases stack with
  | nil => exact .kept (.inl rfl)
  | cons f rest =>
    cases f with
    | body reporting left =>
      cases left with
      | nil => exact .closed rfl (.inr rfl)
      | cons c left =>
        rw [events_of_call]
        exact .called rfl (leaves_start c)
    | answering reporting command left => exact .kept (.inr rfl)
    | running id => exact turns_running t events id rest result
    | destroying id => exact turns_destroying t events id rest result
    | clearing found => exact .kept (leaves_deliver _)
    | scenario run stage => exact .kept (leaves_stepScenario run stage)

/-! ### Places -/

/-- Each body on the stack belongs to an event of its own, which has started. -/
structure Placed (m : Machine) (events : List (KernelId × Nat)) : Prop where
  tallied : m.world.Tallied
  distinct : events.Nodup
  spent : ∀ event ∈ events, m.world.Spent event
  housed : (lefts m.stack).length ≤ events.length

/-- A call may still be carried out there. -/
def Open (m : Machine) (events : List (KernelId × Nat)) (k : Nat) (o : Origin) (n : Nat) : Prop :=
  m.world.Open k o n ∨
    ∃ event left, o = some event ∧ (event, left) ∈ events.zip (lefts m.stack) ∧ n < left

theorem Leaves.le {n : Machine} {l : Nat} (h : n.Leaves s) (hs : s.length ≤ l) :
    (lefts n.stack).length ≤ l := by
  rcases h with h | h
  · rw [h]
    exact Nat.zero_le _
  · rwa [h]

/-- **Each step keeps the bodies with their events.** -/
theorem Placed.step (h : m.Placed events) : m.step.Placed (m.events events) := by
  have hc := courses_step m
  have hspent : ∀ event ∈ events, m.step.world.Spent event :=
    fun event he => hc.spent h.tallied (h.spent event he)
  have hhoused := h.housed
  have ht := turns m h.tallied events
  generalize m.events events = events' at ht
  cases ht with
  | kept hl => exact ⟨hc.tallied h.tallied, h.distinct, hspent, hl.le hhoused⟩
  | started left hbefore hafter hl =>
    refine ⟨hc.tallied h.tallied, List.nodup_cons.2 ⟨fun he => hbefore (h.spent _ he), h.distinct⟩,
      List.forall_mem_cons.2 ⟨hafter, hspent⟩, hl.le (Nat.succ_le_succ hhoused)⟩
  | called hs hl =>
    rw [hs] at hhoused
    exact ⟨hc.tallied h.tallied, h.distinct, hspent, hl.le hhoused⟩
  | closed hs hl =>
    rw [hs] at hhoused
    refine ⟨hc.tallied h.tallied, h.distinct.sublist (List.tail_sublist _),
      fun event he => hspent event (List.mem_of_mem_tail he), hl.le ?_⟩
    rw [List.length_tail]
    exact Nat.le_sub_one_of_lt hhoused

theorem Leaves.mem_zip {n : Machine} {event : KernelId × Nat} {left : Nat} (h : n.Leaves s)
    (hz : (event, left) ∈ events.zip (lefts n.stack)) : (event, left) ∈ events.zip s := by
  rcases h with h | h
  · rw [h] at hz
    cases List.of_mem_zip hz |>.2
  · rwa [h] at hz

/-- **A place that is closed stays closed.** -/
theorem Open.of_step (hp : m.Placed events) (h : m.step.Open (m.events events) k o n) :
    m.Open events k o n := by
  rcases h with h | ⟨event, left, rfl, hz, hn⟩
  · exact .inl ((courses_step m).isOpen hp.tallied h)
  · have ht := turns m hp.tallied events
    generalize m.events events = events' at ht hz
    cases ht with
    | kept hl => exact .inr ⟨event, left, rfl, hl.mem_zip hz, hn⟩
    | started left' hbefore hafter hl =>
      rcases List.mem_cons.1 (hl.mem_zip hz) with he | hz
      · cases he
        exact .inl hbefore
      · exact .inr ⟨event, left, rfl, hz, hn⟩
    | called hs hl =>
      have hz := hl.mem_zip hz
      cases events with
      | nil => cases hz
      | cons e events =>
        refine .inr ?_
        rw [hs]
        rcases List.mem_cons.1 hz with he | hz
        · cases he
          exact ⟨_, _, rfl, List.mem_cons_self, Nat.lt_succ_of_lt hn⟩
        · exact ⟨event, left, rfl, List.mem_cons_of_mem _ hz, hn⟩
    | closed hs hl =>
      have hz := hl.mem_zip hz
      cases events with
      | nil => cases hz
      | cons e events =>
        rw [Open, hs]
        exact .inr ⟨event, left, rfl, List.mem_cons_of_mem _ hz, hn⟩

end Machine

end EventSim
