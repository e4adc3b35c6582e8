import EventSim.Config
import EventSim.Scheduler

/-! # The registry

Names stand for kinds of kernels and kinds of schedulers; looking a name up answers what to build.
Registering a name that is taken replaces what it stands for. Names are listed in ascending order
of their code points.
-/

namespace EventSim

/-- What kernel to build. -/
inductive KernelSpec where
  /-- The built-in kernel. -/
  | builtIn (systemId : UInt32)
  /-- The built-in kernel that reports its making, its schedulers and its destruction. -/
  | watched (systemId : UInt32)
  /-- A kernel that schedules nothing and whose clock stands still. -/
  | fixed (now : Time) (context : Context) (systemId : UInt32)
  deriving DecidableEq

/-- Pairs of a name and what it stands for, in ascending order of the names. -/
abbrev NameTable (α : Type) := List (String × α)

namespace NameTable

variable {α : Type}

/-- What a name stands for. -/
def find? (t : NameTable α) (name : String) : Option α := t.lookup name

/-- The table in which `name` stands for `a`. -/
def register (name : String) (a : α) : NameTable α → NameTable α
  | [] => [(name, a)]
  | (n, b) :: rest =>
    if name < n then (name, a) :: (n, b) :: rest
    else if name = n then (name, a) :: rest
    else (n, b) :: register name a rest

/-- The names. -/
def names (t : NameTable α) : List String := t.map Prod.fst

end NameTable

/-- What the registered names stand for. -/
structure Registry where
  kernels : NameTable KernelSpec
  schedulers : NameTable Backend

namespace Registry

/-- The built-in kernel and the three built-in schedulers. -/
def builtIn : Registry where
  kernels := [(Config.builtInKernel, .builtIn 0)]
  schedulers :=
    [(Config.heapScheduler, .heap), (Config.listScheduler, .list), (Config.mapScheduler, .map)]

/-- The kernel that a name stands for. -/
def kernel (r : Registry) (name : String) : Except SimError KernelSpec :=
  match r.kernels.find? name with
  | some spec => .ok spec
  | none => .error (.unknownKernel name)

/-- The scheduler that a name stands for. -/
def scheduler (r : Registry) (name : String) : Except SimError Backend :=
  match r.schedulers.find? name with
  | some backend => .ok backend
  | none => .error (.unknownScheduler name)

/-- Both names of a configuration stand for something; the kernel is looked up first. -/
def validate (r : Registry) (c : Config) : Except SimError Unit :=
  match r.kernel c.kernelType with
  | .error e => .error e
  | .ok _ =>
    match r.scheduler c.schedulerType with
    | .error e => .error e
    | .ok _ => .ok ()

end Registry

end EventSim
