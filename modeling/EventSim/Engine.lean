import EventSim.Kernel
import EventSim.Registry

/-! # Engines

What can sit behind the facade: the built-in kernel, with or without a report of what is done to
it, or a fixed kernel, whose clock stands still and which gives up every action at once. All answer
the same questions and take the same calls.
-/

namespace EventSim

/-- A kernel that schedules nothing. -/
structure FixedKernel where
  id : KernelId
  systemId : UInt32
  now : Time
  context : Context

/-- A kernel of any kind. -/
inductive Engine (α : Type) where
  | builtIn (watched : Bool) (kernel : Kernel α)
  | fixed (kernel : FixedKernel)

namespace Engine

variable {α : Type}

/-- The kernel of a kind, with its identity. -/
def make (id : KernelId) : KernelSpec → Engine α
  | .builtIn systemId => .builtIn false (.fresh id systemId)
  | .watched systemId => .builtIn true (.fresh id systemId)
  | .fixed now context systemId => .fixed ⟨id, systemId, now, context⟩

/-! ### Questions -/

/-- The identity. -/
def id : Engine α → KernelId
  | builtIn _ k => k.id
  | fixed k => k.id

/-- The present. -/
def now : Engine α → Time
  | builtIn _ k => k.now
  | fixed k => k.now

/-- The present context. -/
def context : Engine α → Context
  | builtIn _ k => k.context
  | fixed k => k.context

/-- The number of events that have run. -/
def executed : Engine α → Nat
  | builtIn _ k => k.executed
  | fixed _ => 0

/-- Nothing will run. -/
def isFinished : Engine α → Bool
  | builtIn _ k => k.isFinished
  | fixed _ => true

/-- The number of the logical process. -/
def systemId : Engine α → UInt32
  | builtIn _ k => k.systemId
  | fixed k => k.systemId

/-- What is done to it is reported. -/
def isWatched : Engine α → Bool
  | builtIn watched _ => watched
  | fixed _ => false

/-- The event of a handle will not run. -/
def isExpired (e : Engine α) (h : Handle) : Bool :=
  match e with
  | builtIn _ k => k.isExpired h
  | fixed _ => true

/-- The time until the event of a handle runs. -/
def delayLeft (e : Engine α) (h : Handle) : Except Panic (Except SimError Time) :=
  match e with
  | builtIn _ k => k.delayLeft h
  | fixed _ => .ok (.ok .zero)

/-- An event is stored under the key of a handle. -/
def isStored (e : Engine α) (h : Handle) : Bool :=
  match e with
  | builtIn _ k => k.scheduler.toList.any fun x => x.key.Same h.key
  | fixed _ => false

/-- The name of the scheduler, if it has one. -/
def backendName : Engine α → Option String
  | builtIn _ k => some k.scheduler.backend.name
  | fixed _ => none

/-- The number of events that will run, if it counts them. -/
def pendingCount? : Engine α → Option Nat
  | builtIn _ k => some k.pending.length
  | fixed _ => none

/-- The actions that it holds. -/
def held : Engine α → List α
  | builtIn _ k => k.held
  | fixed _ => []

/-! ### Calls -/

/-- The engine with its built-in kernel changed. -/
def onKernel (f : Kernel α → Kernel α) : Engine α → Engine α
  | builtIn watched k => builtIn watched (f k)
  | fixed k => fixed k

/-- The engine with an action scheduled; the handle, and the action if it is given up. -/
def schedule (e : Engine α) (timing : Timing) (action : α) :
    Except SimError Handle × List α × Engine α :=
  match e with
  | builtIn watched k =>
    match k.schedule timing action with
    | .ok (h, k) => (.ok h, [], builtIn watched k)
    | .error error => (.error error, [action], e)
  | fixed _ => (.ok .none, [action], e)

/-- The engine with a stop scheduled. -/
def stopAfter (e : Engine α) (delay : Time) : Except SimError Handle × Engine α :=
  match e with
  | builtIn watched k =>
    match k.stopAfter delay with
    | .ok (h, k) => (.ok h, builtIn watched k)
    | .error error => (.error error, e)
  | fixed _ => (.ok .none, e)

/-- The engine without the event of a handle, and the action if it is given up. -/
def remove (e : Engine α) (h : Handle) : Option α × Engine α :=
  match e with
  | builtIn watched k =>
    let r := k.remove h
    (r.1, builtIn watched r.2)
  | fixed _ => (none, e)

/-- The engine in which the event of a handle will not run, and the action if it is given up. -/
def cancel (e : Engine α) (h : Handle) : Option α × Engine α :=
  match e with
  | builtIn watched k =>
    let r := k.cancel h
    (r.1, builtIn watched r.2)
  | fixed _ => (none, e)

end Engine

end EventSim
