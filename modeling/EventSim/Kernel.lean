import EventSim.Error
import EventSim.Scheduler

/-! # The kernel

A kernel holds the virtual clock, a scheduler with the timed events, a list of teardown events,
and two sets of event numbers: `pending` are stored and will run, `cancelled` are stored and will
be skipped. Every scheduling call takes the next number, so numbers tell the events of a kernel
apart for good.

The operations are pure. Running an action is not among them: `dequeue` hands out what the run loop
has to do next, `popTeardown` what the destruction of the kernel has to do next, and whoever drives
the kernel carries it out and comes back. An operation that gives an action up without running it
answers it, so that it can be released.
-/

namespace EventSim

/-- What a stored event does when it runs. -/
inductive Payload (α : Type) where
  /-- It asks the run loop to stop. -/
  | halt
  /-- It runs an action. -/
  | act (action : α)

/-- The action of a payload, if it has one. -/
def Payload.action? {α : Type} : Payload α → Option α
  | .halt => none
  | .act a => some a

/-- When an event is to run, and under which context. -/
inductive Timing where
  /-- After a delay, under the present context. -/
  | after (delay : Time)
  /-- At the present time, under the present context. -/
  | immediately
  /-- After a delay, under the given context. -/
  | under (context : Context) (delay : Time)
  /-- When the kernel is destroyed. -/
  | atTeardown
  deriving DecidableEq

/-- An event that runs when the kernel is destroyed. -/
structure TeardownEvent (α : Type) where
  uid : Nat
  action : α

/-- The state of the built-in kernel. -/
structure Kernel (α : Type) where
  id : KernelId
  systemId : UInt32
  now : Time
  context : Context
  /-- The run loop is to end after the present event. -/
  stopping : Bool
  scheduler : Scheduler (Payload α)
  /-- In the order of their registration. -/
  teardowns : List (TeardownEvent α)
  /-- The numbers of the timed events that will run. -/
  pending : List Nat
  /-- The numbers of the stored events that will be skipped. -/
  cancelled : List Nat
  nextUid : Nat
  /-- The number of timed events that have run. -/
  executed : Nat

/-- What the run loop has to do next. -/
inductive Dequeued (α : Type) where
  /-- Nothing: it ends. -/
  | idle
  /-- An event was cancelled: its payload is given up. -/
  | skipped (payload : Payload α) (kernel : Kernel α)
  /-- The scheduler handed out an event of the past: its payload is given up. -/
  | past (payload : Payload α) (kernel : Kernel α)
  /-- An event runs now. -/
  | started (event : Event (Payload α)) (kernel : Kernel α)

namespace Kernel

variable {α : Type}

/-- A kernel at the start of virtual time, with an ordered map. -/
def fresh (id : KernelId) (systemId : UInt32) : Kernel α where
  id := id
  systemId := systemId
  now := .zero
  context := noContext
  stopping := false
  scheduler := .empty .map
  teardowns := []
  pending := []
  cancelled := []
  nextUid := 1
  executed := 0

/-! ### Scheduling -/

/-- The kernel with a payload stored under the next number, and the handle of the event. -/
def store (k : Kernel α) (time : Time) (context : Context) (payload : Payload α) :
    Handle × Kernel α :=
  let key : EventKey := ⟨time, k.nextUid, context⟩
  (.ofKey (some k.id) key,
    { k with
      nextUid := k.nextUid + 1
      scheduler := k.scheduler.insert ⟨key, payload⟩
      pending := k.nextUid :: k.pending })

/-- The kernel with a payload stored `delay` from now. A negative delay is refused before one that
leads past the greatest time. -/
def insert (k : Kernel α) (context : Context) (delay : Time) (payload : Payload α) :
    Except SimError (Handle × Kernel α) :=
  if delay.isNegative then .error (.negativeDelay delay)
  else
    match k.now.checkedAdd delay with
    | none => .error (.timeOverflow k.now delay)
    | some time => .ok (k.store time context payload)

/-- The kernel with an action registered for its destruction. -/
def register (k : Kernel α) (action : α) : Handle × Kernel α :=
  (.ofTeardown (some k.id) k.now k.nextUid,
    { k with nextUid := k.nextUid + 1, teardowns := k.teardowns ++ [⟨k.nextUid, action⟩] })

/-- The kernel with an action scheduled. -/
def schedule (k : Kernel α) (timing : Timing) (action : α) :
    Except SimError (Handle × Kernel α) :=
  match timing with
  | .after delay => k.insert k.context delay (.act action)
  | .immediately => .ok (k.store k.now k.context (.act action))
  | .under context delay => k.insert context delay (.act action)
  | .atTeardown => .ok (k.register action)

/-- The kernel with a stop scheduled. -/
def stopAfter (k : Kernel α) (delay : Time) : Except SimError (Handle × Kernel α) :=
  k.insert k.context delay .halt

/-! ### Handles -/

/-- The kernel issued `h`. -/
def Issued (k : Kernel α) (h : Handle) : Prop := h.owner = some k.id

instance (k : Kernel α) (h : Handle) : Decidable (k.Issued h) :=
  inferInstanceAs (Decidable (_ = _))

/-- The kernel without the teardown event of number `uid`, and its action. -/
def takeTeardown (k : Kernel α) (uid : Nat) : Option α × Kernel α :=
  ((k.teardowns.find? fun e => e.uid == uid).map TeardownEvent.action,
    { k with teardowns := k.teardowns.eraseP fun e => e.uid == uid })

/-- The kernel without the event of `h`, and the action that is given up. -/
def remove (k : Kernel α) (h : Handle) : Option α × Kernel α :=
  if k.Issued h then
    match h.kind with
    | .teardown => k.takeTeardown h.uid
    | .timed =>
      let marked : Kernel α :=
        { k with pending := k.pending.erase h.uid, cancelled := k.cancelled.erase h.uid }
      if h.uid ∈ k.pending ∨ h.uid ∈ k.cancelled then
        let r := k.scheduler.remove h.key
        (r.1.bind fun e => e.payload.action?, { marked with scheduler := r.2 })
      else (none, marked)
  else (none, k)

/-- The kernel in which the event of `h` will not run, and the action that is given up at once: a
timed event stays stored until it is dequeued. -/
def cancel (k : Kernel α) (h : Handle) : Option α × Kernel α :=
  if k.Issued h then
    match h.kind with
    | .teardown => k.takeTeardown h.uid
    | .timed =>
      if h.uid ∈ k.pending then
        (none, { k with pending := k.pending.erase h.uid, cancelled := k.cancelled.insert h.uid })
      else (none, k)
  else (none, k)

/-- The event of `h` will not run any more, or is none of this kernel. -/
def isExpired (k : Kernel α) (h : Handle) : Bool :=
  if k.Issued h then
    match h.kind with
    | .teardown => !(k.teardowns.any fun e => e.uid == h.uid)
    | .timed => !(k.pending.contains h.uid)
  else true

/-- The time until the event of `h` runs; a teardown event runs at the end of time. -/
def delayLeft (k : Kernel α) (h : Handle) : Except Panic (Except SimError Time) :=
  if k.isExpired h then .ok (.error (.expiredHandle h.uid))
  else
    let due := match h.kind with
      | .teardown => Time.greatest
      | .timed => h.time
    match due.sub k.now with
    | .ok left => .ok (.ok left)
    | .error operation => .error (.overflow operation)

/-! ### State -/

/-- No timed event will run. -/
def isFinished (k : Kernel α) : Bool := k.pending.isEmpty

/-- The kernel with its stored events moved into a scheduler of the kind `b`. -/
def attach (k : Kernel α) (b : Backend) : Kernel α :=
  { k with scheduler := k.scheduler.migrate b }

/-- The kernel whose run loop ends after the present event. -/
def stop (k : Kernel α) : Kernel α := { k with stopping := true }

/-! ### The run loop -/

/-- The kernel at the start of its run loop, which forgets an earlier request to stop. -/
def beginRun (k : Kernel α) : Kernel α := { k with stopping := false }

/-- The kernel at the end of its run loop, outside of any context. -/
def endRun (k : Kernel α) : Kernel α := { k with context := noContext }

/-- The next thing that the run loop has to do. -/
def dequeue (k : Kernel α) : Dequeued α :=
  if k.stopping then .idle
  else
    match k.scheduler.pop with
    | none => .idle
    | some (e, rest) =>
      let k := { k with scheduler := rest }
      if e.key.uid ∈ k.cancelled then
        .skipped e.payload { k with cancelled := k.cancelled.erase e.key.uid }
      else if e.key.time < k.now then .past e.payload k
      else
        .started e
          { k with
            pending := k.pending.erase e.key.uid
            executed := k.executed + 1
            now := e.key.time
            context := e.key.context }

/-! ### Destruction -/

/-- The teardown event that is next and the kernel without it. -/
def popTeardown (k : Kernel α) : Option (TeardownEvent α × Kernel α) :=
  match k.teardowns with
  | [] => none
  | e :: rest => some (e, { k with teardowns := rest })

/-- The kernel without timed events and with an ordered map again, and the actions that are given
up, in the order in which the scheduler held them. -/
def sweep (k : Kernel α) : List α × Kernel α :=
  (k.scheduler.toList.filterMap fun e => e.payload.action?,
    { k with pending := [], cancelled := [], scheduler := .empty .map })

/-- The actions that the kernel holds. -/
def held (k : Kernel α) : List α :=
  (k.scheduler.toList.filterMap fun e => e.payload.action?) ++ k.teardowns.map TeardownEvent.action

/-- The kernel without any event. -/
def emptied (k : Kernel α) : Kernel α := { k.sweep.2 with teardowns := [] }

end Kernel

end EventSim
