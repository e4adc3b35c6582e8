import EventSim.Facade

/-! # Setting the stage

The calls on the configuration and on the registry. A configuration is written only after both its
names have been looked up, and a call that is refused leaves everything as it was. Nothing can be
written while the environment is faulty.
-/

namespace EventSim.World

/-- The world with the configuration written. -/
def write (w : World) (c : Config) : Except Panic Reply × World :=
  match w.config with
  | .error p => (.error p, w)
  | .ok _ => (.ok .done, { w with written := some c })

/-- The world with a configuration written whose names are known. -/
def apply (w : World) (c : Config) : Except Panic Reply × World :=
  match w.registry.validate c with
  | .error e => (.ok (.refused e), w)
  | .ok _ => w.write c

/-- The present configuration given to `f`. -/
def onConfig (w : World) (f : Config → Except Panic Reply × World) : Except Panic Reply × World :=
  match w.config with
  | .error p => (.error p, w)
  | .ok c => f c

/-- The world with a scheduler of that name chosen. -/
def chooseScheduler (w : World) (name : String) : Except Panic Reply × World :=
  match w.registry.scheduler name with
  | .error e => (.ok (.refused e), w)
  | .ok _ => w.onConfig fun c => w.write { c with schedulerType := name }

/-- The world with a kernel of that name chosen. -/
def chooseKernel (w : World) (name : String) : Except Panic Reply × World :=
  match w.registry.kernel name with
  | .error e => (.ok (.refused e), w)
  | .ok _ => w.onConfig fun c => w.write { c with kernelType := name }

/-- The world with the configuration of a file. -/
def load (w : World) (content : FileContent) : Except Panic Reply × World :=
  match content with
  | .text s =>
    match Config.ofJson s with
    | .error e => (.ok (.invalid e), w)
    | .ok c =>
      match w.apply c with
      | (.ok (.refused e), w) => (.ok (.invalid e), w)
      | (.ok _, w) => (.ok (.config c), w)
      | (.error p, w) => (.error p, w)
  | content => (.ok (.unreadable content), w)

/-- The names of the schedulers to run with: the configured one, all, or the one asked for. -/
def select (w : World) (name : Option String) : Except Panic (Except SimError (List String)) :=
  match name with
  | none =>
    match w.config with
    | .error p => .error p
    | .ok c => .ok (.ok [c.schedulerType])
  | some name =>
    if name = "all" then .ok (.ok w.registry.schedulers.names)
    else
      match w.registry.scheduler name with
      | .error e => .ok (.error e)
      | .ok _ => .ok (.ok [name])

/-- A call on the configuration. -/
def configure (w : World) : ConfigCall → Except Panic Reply × World
  | .get => w.onConfig fun c => (.ok (.config c), w)
  | .chooseKernel name => w.chooseKernel name
  | .chooseScheduler name => w.chooseScheduler name
  | .assign text =>
    w.onConfig fun c =>
      match c.assigned text with
      | .error e => (.ok (.refused e), w)
      | .ok c => w.apply c
  | .applyJson text =>
    match Config.ofJson text with
    | .error e => (.ok (.refused e), w)
    | .ok c => w.apply c
  | .reset => w.write .default
  | .load content => w.load content
  | .select name =>
    match w.select name with
    | .error p => (.error p, w)
    | .ok (.error e) => (.ok (.refused e), w)
    | .ok (.ok names) => (.ok (.names names), w)

/-- A call on the registry. Looking a kernel up makes one. -/
def enroll (w : World) : RegistryCall → Except Panic Reply × World
  | .kernelNames => (.ok (.names w.registry.kernels.names), w)
  | .schedulerNames => (.ok (.names w.registry.schedulers.names), w)
  | .lookupKernel name =>
    match w.registry.kernel name with
    | .error e => (.ok (.refused e), w)
    | .ok spec =>
      let (id, w) := w.make spec
      (.ok (.systemId (((w.engine? id).map Engine.systemId).getD 0)), w)
  | .lookupScheduler name =>
    match w.registry.scheduler name with
    | .error e => (.ok (.refused e), w)
    | .ok b => (.ok (.name b.name), w)
  | .registerKernel name spec =>
    let taken := (w.registry.kernels.find? name).isSome
    let kernels := NameTable.register name spec w.registry.kernels
    (.ok (.flag taken), { w with registry := { w.registry with kernels := kernels } })
  | .registerScheduler name b =>
    let taken := (w.registry.schedulers.find? name).isSome
    let schedulers := NameTable.register name b w.registry.schedulers
    (.ok (.flag taken), { w with registry := { w.registry with schedulers := schedulers } })

end EventSim.World
