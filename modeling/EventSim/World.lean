import EventSim.Command
import EventSim.Engine

/-! # The world of a session

A `World` is everything that outlives a call: the kernels made so far, the slot of the facade, the
registry, the configuration, the printers, the trace, the saved handles and the journal. A kernel's
identity is its position in the list of kernels; a kernel that nothing refers to any more stays in
the list without events.

The configuration is what was last written, or what the environment says as long as nothing was.
-/

namespace EventSim

/-- The printers that are installed. -/
structure Printers where
  time : Option Printer
  node : Option Printer
  deriving DecidableEq

namespace Printers

/-- No printer. -/
def none : Printers := ⟨.none, .none⟩

/-- The printers that the facade installs. -/
def standard : Printers := ⟨some .standard, some .standard⟩

/-- At least one printer is installed. -/
def installed (p : Printers) : Bool := p.time.isSome || p.node.isSome

end Printers

/-- Everything that outlives a call. -/
structure World where
  engines : List (Engine Action)
  /-- The kernel behind the facade. -/
  slot : Option KernelId
  /-- The kernels that programs can name. -/
  named : List (KernelName × KernelId)
  registry : Registry
  /-- The environment variable with assignments. -/
  environment : Option String
  /-- The configuration, once it was written. -/
  written : Option Config
  printers : Printers
  trace : Trace
  /-- The saved handles, the newest first. -/
  handles : List (HandleName × Handle)
  /-- The notes of actions, the newest first. -/
  observed : List Observation
  /-- What happened, the newest first. -/
  journal : List Entry

namespace World

/-- The world before any call. -/
def pristine (environment : Option String) : World where
  engines := []
  slot := none
  named := []
  registry := .builtIn
  environment := environment
  written := none
  printers := .none
  trace := .empty
  handles := []
  observed := []
  journal := []

/-! ### Journal -/

/-- The world with one more entry in the journal. -/
def log (w : World) (e : Entry) : World := { w with journal := e :: w.journal }

/-- The world in which an action was given up. -/
def release (w : World) (a : Action) : World :=
  match a.tag with
  | none => w
  | some tag => w.log (.released tag)

/-- The world in which actions were given up one by one. -/
def releaseAll (w : World) (l : List Action) : World := l.foldl release w

/-- The world in which a watched kernel has reported. -/
def report (w : World) (event : String) : World :=
  w.log (.watched event w.slot.isSome w.printers.installed)

/-! ### Kernels -/

/-- The kernel of an identity. -/
def engine? (w : World) (id : KernelId) : Option (Engine Action) := w.engines[id]?

/-- The world with a kernel changed. -/
def setEngine (w : World) (id : KernelId) (e : Engine Action) : World :=
  { w with engines := w.engines.set id e }

/-- The world with a kernel changed by a function. -/
def mapEngine (w : World) (id : KernelId) (f : Engine Action → Engine Action) : World :=
  { w with engines := w.engines.modify id f }

/-- The identity of a new kernel and the world with it. -/
def make (w : World) (spec : KernelSpec) : KernelId × World :=
  let w :=
    match spec with
    | .watched _ => w.report "new"
    | .builtIn _ | .fixed .. => w
  (w.engines.length, { w with engines := w.engines ++ [Engine.make w.engines.length spec] })

/-- The number of kernels that the program made. -/
def countNumbered (w : World) : Nat :=
  (w.named.filter fun p => match p.1 with
    | .numbered _ => true
    | .injected => false).length

/-- The world with a new kernel under a name, the next number if none is given. -/
def build (w : World) (name : Option KernelName) (spec : KernelSpec) : Nat × World :=
  let count := w.countNumbered
  let (id, w) := w.make spec
  let name := name.getD (.numbered count)
  (count, { w with named := (name, id) :: w.named.filter fun p => p.1 ≠ name })

/-- The kernel of a name; a name without kernel is an index out of bounds. -/
def lookup (w : World) (name : KernelName) : Except Panic KernelId :=
  match w.named.lookup name with
  | some id => .ok id
  | none =>
    .error (.noSuchKernel (match name with | .numbered n => n | .injected => 0) w.countNumbered)

/-- The kernel is known to the program under a name. -/
def isNamed (w : World) (id : KernelId) : Bool := w.named.any fun p => p.2 == id

/-- The world after a kernel has lost its place in the slot: unless the program has a name for it,
it goes, and its actions are given up. -/
def abandon (w : World) (id : KernelId) : World :=
  if w.isNamed id then w
  else
    match w.engine? id with
    | none => w
    | some e => (w.releaseAll e.held).mapEngine id (Engine.onKernel Kernel.emptied)

/-- The world in which a scheduler of the kind `b` was attached to a kernel. -/
def attach (w : World) (id : KernelId) (b : Backend) : World :=
  match w.engine? id with
  | none => w
  | some e =>
    let w := if e.isWatched then w.report "set_scheduler" else w
    w.setEngine id (e.onKernel fun k => k.attach b)

/-! ### Handles -/

/-- The handle that was saved under a name. -/
def handle (w : World) (name : HandleName) : Handle := (w.handles.lookup name).getD .none

/-- The world with a handle saved; it hides an older one under the same name. -/
def save (w : World) (name : HandleName) (h : Handle) : World :=
  { w with handles := (name, h) :: w.handles }

/-! ### Configuration -/

/-- The configuration. It cannot be had as long as the environment is faulty and nothing could be
written. -/
def config (w : World) : Except Panic Config :=
  match w.written with
  | some c => .ok c
  | none =>
    match Config.ofEnvironment w.environment with
    | .ok c => .ok c
    | .error e => .error (.badEnvironment e)

end World

end EventSim
