import EventSim.Journal
import EventSim.Machine

/-! # Sessions

A session is a world to which commands come one by one from outside. Each turn answers how the
command ended and what the journal tells of it, and afterwards the target of the command can be
viewed. Viewing builds nothing: an empty slot is seen as empty. At its close a session tears down
whatever is behind the facade, again and again if actions raise panics, and lets the kernels go
that programs had names for.
-/

namespace EventSim

/-- What is seen of a kernel. The two parts that only the built-in kernel has are seen if the
program made it and it is not watched. -/
structure KernelView where
  now : Time
  context : Context
  executed : Nat
  isFinished : Bool
  systemId : UInt32
  pending : Option Nat
  scheduler : Option String

/-- What is seen of a target. -/
inductive View where
  | kernel (view : KernelView)
  | facade (kernel : Option KernelView) (time node : Bool)

/-- How a command ended and what the journal tells of it. -/
structure Turn where
  outcome : Except Panic Reply
  entries : List Entry

/-- What is seen of a kernel; its inside only if asked for. -/
def Engine.view (e : Engine Action) (inside : Bool) : KernelView where
  now := e.now
  context := e.context
  executed := e.executed
  isFinished := e.isFinished
  systemId := e.systemId
  pending := if inside then e.pendingCount? else none
  scheduler := if inside then e.backendName else none

namespace World

/-! ### Views -/

/-- The program has a number for the kernel. -/
def isNumbered (w : World) (id : KernelId) : Bool :=
  w.named.any fun p =>
    match p.1 with
    | .numbered _ => p.2 == id
    | .injected => false

/-- What is seen of the kernel of an identity. -/
def viewKernel (w : World) (id : KernelId) : Option KernelView :=
  (w.engine? id).map fun e => e.view (w.isNumbered id && !e.isWatched)

/-- What is seen of a target, nothing if there is no such kernel. -/
def view (w : World) : Target → Option View
  | .facade =>
    some (.facade (w.slot.bind w.viewKernel) w.printers.time.isSome w.printers.node.isSome)
  | .kernel name =>
    match w.lookup name with
    | .error _ => none
    | .ok id => (w.viewKernel id).map .kernel

/-! ### Turns -/

/-- A command from outside, and the world without the entries that have been told. -/
def turn (w : World) (c : Command) : Turn × World :=
  let (outcome, w) := w.call c
  (⟨outcome, Journal.settled c.settles w.journal⟩, { w with journal := [] })

/-- The first panic of repeated teardowns, and the world with an empty slot. A teardown that ends
in a panic has used up an event, so `n` of them are enough if nothing weighs more than that. -/
def tearDown (w : World) : Nat → Option Panic × World
  | 0 => (none, w)
  | n + 1 =>
    if w.slot.isNone then (none, w)
    else
      match w.call .teardown with
      | (.ok _, w) => w.tearDown n
      | (.error p, w) => (some p, (w.tearDown n).2)

/-- The world without names for kernels; what the kernels hold is given up. -/
def forgetNames (w : World) : World :=
  (w.named.map Prod.snd).foldl abandon { w with named := [] }

/-- The end of a session: what is behind the facade is torn down, then the kernels go. -/
def close (w : World) : Turn :=
  let (panic, w) := w.tearDown (w.weight + 2)
  let w := w.forgetNames
  ⟨match panic with
    | some p => .error p
    | none => .ok .done, Journal.settled true w.journal⟩

end World

end EventSim
