import EventSim.World

/-! # The facade

The facade addresses one kernel, the one in its slot. A call that finds the slot empty builds the
kernel that the configuration names: it looks both names up, makes the kernel, puts it into the
slot, attaches the scheduler and installs the printers, in this order. Handing a kernel over skips
the first two steps and is refused while the slot is taken.

Calls about a handle never build a kernel: without one, nothing can be pending.
-/

namespace EventSim.World

/-! ### Resolution -/

/-- The world in which a kernel was put into the empty slot and made ready. -/
def occupy (w : World) (id : KernelId) (b : Backend) : World :=
  { ({ w with slot := some id }.attach id b) with printers := .standard }

/-- The kernel that the configuration names, and the world with it in the slot. -/
def construct (w : World) : Except Panic (KernelId × World) :=
  match w.config with
  | .error p => .error p
  | .ok c =>
    match w.registry.kernel c.kernelType with
    | .error e => .error (.construction e)
    | .ok spec =>
      match w.registry.scheduler c.schedulerType with
      | .error e => .error (.construction e)
      | .ok b =>
        let (id, w) := w.make spec
        .ok (id, w.occupy id b)

/-- The kernel in the slot, built if need be. -/
def resolve (w : World) : Except Panic (KernelId × World) :=
  match w.slot with
  | some id => .ok (id, w)
  | none => w.construct

/-- The kernel that a target stands for, built if need be. -/
def reach (w : World) (t : Target) : Except Panic (KernelId × World) :=
  match t with
  | .facade => w.resolve
  | .kernel name =>
    match w.lookup name with
    | .error p => .error p
    | .ok id => .ok (id, w)

/-- The kernel that a target stands for, if there is one. -/
def find (w : World) (t : Target) : Except Panic (Option KernelId) :=
  match t with
  | .facade => .ok w.slot
  | .kernel name =>
    match w.lookup name with
    | .error p => .error p
    | .ok id => .ok (some id)

/-- The kernel of a target and the world with it, given to `f`. -/
def onReached (w : World) (t : Target)
    (f : KernelId → Engine Action → World → Except Panic Reply × World) :
    Except Panic Reply × World :=
  match w.reach t with
  | .error p => (.error p, w)
  | .ok (id, w) =>
    match w.engine? id with
    | none => (.ok .done, w)
    | some e => f id e w

/-- The present of a target. -/
def nowOf (w : World) (t : Target) : Except Panic (Time × World) :=
  match w.reach t with
  | .error p => .error p
  | .ok (id, w) => .ok (((w.engine? id).map Engine.now).getD .zero, w)

/-- The present context of a target. -/
def contextOf (w : World) (t : Target) : Except Panic (Context × World) :=
  match w.reach t with
  | .error p => .error p
  | .ok (id, w) => .ok (((w.engine? id).map Engine.context).getD noContext, w)

/-- The world in which a kernel was handed to the facade. The configured scheduler must be known
and the slot empty, in this order. -/
def install (w : World) (id : KernelId) : Except Panic (Except SimError World) :=
  match w.config with
  | .error p => .error p
  | .ok c =>
    match w.registry.scheduler c.schedulerType with
    | .error e => .ok (.error e)
    | .ok b =>
      match w.slot with
      | some _ => .ok (.error .kernelPresent)
      | none => .ok (.ok (w.occupy id b))

/-! ### Scheduling -/

/-- The world in which a scheduling call through the facade was traced; events of the teardown are
not. -/
def traced (w : World) (e : Engine Action) (timing : Timing) : World :=
  match timing with
  | .after delay => { w with trace := w.trace.add e.context e.context e.now delay }
  | .immediately => { w with trace := w.trace.add e.context e.context e.now .zero }
  | .under context delay => { w with trace := w.trace.add e.context context e.now delay }
  | .atTeardown => w

/-- The world in which an action was scheduled and its handle saved, or the action given up. -/
def schedule (w : World) (t : Target) (timing : Timing) (name : HandleName) (a : Action) :
    Except Panic Reply × World :=
  match w.reach t with
  | .error p => (.error p, w.release a)
  | .ok (id, w) =>
    match w.engine? id with
    | none => (.ok .done, w)
    | some e =>
      let w := if t = .facade then w.traced e timing else w
      let (r, dropped, e) := e.schedule timing a
      let w := (w.setEngine id e).releaseAll dropped
      match r with
      | .ok h => (.ok (.handle h), w.save name h)
      | .error error => (.ok (.refused error), w)

/-- The world in which an action was scheduled after each of several delays, the positions counted
from `i`. -/
def scheduleEach (w : World) (t : Target) (name : Option HandleName) (a : Action) :
    Nat → List Time → Except Panic (List Reply) × World
  | _, [] => (.ok [], w)
  | i, delay :: rest =>
    let b := a.numbered i
    match w.schedule t (.after delay) (name.getD (.word (b.tag.getD ""))) b with
    | (.error p, w) => (.error p, w)
    | (.ok r, w) =>
      match w.scheduleEach t name a (i + 1) rest with
      | (.error p, w) => (.error p, w)
      | (.ok rs, w) => (.ok (r :: rs), w)

/-- The action of a link in a chain: it schedules the links that are left. -/
def link (t : Target) (tag : String) (delay : Time) (left : Nat) (name : HandleName) : Action :=
  .mk (some (tag ++ toString (left + 1))) false t [.chain t tag delay left name]

/-- The world in which a stop was scheduled and its handle saved. -/
def stopAfter (w : World) (t : Target) (delay : Time) (name : HandleName) :
    Except Panic Reply × World :=
  w.onReached t fun id e w =>
    match e.stopAfter delay with
    | (.ok h, e) => (.ok (.handle h), (w.setEngine id e).save name h)
    | (.error error, e) => (.ok (.refused error), w.setEngine id e)

/-! ### Handles -/

/-- The kernel of a target, if there is one, given to `f`; otherwise the reply `without`. -/
def onFound (w : World) (t : Target) (without : Reply)
    (f : KernelId → Engine Action → Except Panic Reply × World) : Except Panic Reply × World :=
  match w.find t with
  | .error p => (.error p, w)
  | .ok none => (.ok without, w)
  | .ok (some id) =>
    match w.engine? id with
    | none => (.ok without, w)
    | some e => f id e

/-- The world without the event of a handle. -/
def remove (w : World) (t : Target) (h : Handle) : Except Panic Reply × World :=
  w.onFound t .done fun id e =>
    let r := e.remove h
    (.ok .done, (w.setEngine id r.2).releaseAll r.1.toList)

/-- The world in which the event of a handle will not run. -/
def cancel (w : World) (t : Target) (h : Handle) : Except Panic Reply × World :=
  w.onFound t .done fun id e =>
    let r := e.cancel h
    (.ok .done, (w.setEngine id r.2).releaseAll r.1.toList)

/-- Whether the event of a handle will not run. -/
def isExpired (w : World) (t : Target) (h : Handle) : Except Panic Reply × World :=
  w.onFound t (.flag true) fun _ e => (.ok (.flag (e.isExpired h)), w)

/-- The time until the event of a handle runs. -/
def delayLeft (w : World) (t : Target) (h : Handle) : Except Panic Reply × World :=
  w.onReached t fun _ e w =>
    match e.delayLeft h with
    | .error p => (.error p, w)
    | .ok (.error error) => (.ok (.refused error), w)
    | .ok (.ok left) => (.ok (.time left), w)

/-! ### Questions -/

/-- The answer of a kernel to a question. -/
def answer (e : Engine Action) : Query → Reply
  | .isFinished => .flag e.isFinished
  | .now => .time e.now
  | .context => .context e.context
  | .executed => .count e.executed
  | .systemId => .systemId e.systemId
  | .greatestTime => .time .greatest
  | .identity => .identity e.id

/-- The answer of a target to a question. Only the number of the logical process can be asked for
without building a kernel. -/
def ask (w : World) (t : Target) (q : Query) : Except Panic Reply × World :=
  match q with
  | .systemId => w.onFound t (.systemId 0) fun _ e => (.ok (.systemId e.systemId), w)
  | q => w.onReached t fun _ e w => (.ok (answer e q), w)

end EventSim.World
