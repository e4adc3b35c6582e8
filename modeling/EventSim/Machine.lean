import EventSim.Perform
import EventSim.Weight

/-! # The machine

Commands that run actions are carried out by a machine with an explicit stack. A frame is what is
left of a call that waits for the frames above it: the rest of an action's body, a run loop, the
destruction of a kernel, the end of a teardown, a scenario. `Machine.step` takes one step of the
topmost frame; when a command has ended, its reply is delivered to the frame that waits for it. A
panic unwinds the whole stack, and nothing that the frames had still to do is done: the state stays
as it was at that moment.

Actions can therefore call back into everything, to any depth, and every state in between is a
state of the machine.
-/

namespace EventSim

/-- A scenario that is being run. -/
structure ScenarioRun where
  scenario : ScenarioId
  seed : UInt64
  scheduler : String
  events : Nat

/-- How far a scenario has come. -/
inductive ScenarioStage where
  /-- The first teardown has been started. -/
  | opened
  /-- Its plan is carried out. -/
  | probing (saved : Config) (left : List Scenario.Probe) (replies : List Reply)
  /-- It waits for the reply to a probe. -/
  | judging (saved : Config) (probe : Scenario.Probe) (left : List Scenario.Probe)
      (replies : List Reply)
  /-- The plan has ended, well or not. -/
  | judged (saved : Config) (verdict : Except String (Nat × Time))
  /-- The last teardown has been started. -/
  | restoring (saved : Config) (verdict : Except String (Nat × Time))

/-- What is left of a call. -/
inductive Frame where
  /-- The rest of a body, and whether its commands are told in the journal. -/
  | body (reporting : Bool) (left : List Command)
  /-- A body that waits for the reply to a command. -/
  | answering (reporting : Bool) (command : String) (left : List Command)
  /-- The run loop of a kernel. -/
  | running (id : KernelId)
  /-- The teardown events of a kernel. -/
  | destroying (id : KernelId)
  /-- The end of a teardown that found the kernel `found` in the slot: the slot is cleared. -/
  | clearing (found : KernelId)
  | scenario (run : ScenarioRun) (stage : ScenarioStage)

/-- A session in the middle of a call. -/
structure Machine where
  world : World
  stack : List Frame
  /-- How the outermost call ended. -/
  result : Option (Except Panic Reply)

namespace ScenarioRun

/-- The run of a scenario that is asked for. -/
def ofRequest? (r : ScenarioRequest) : Option ScenarioRun :=
  (ScenarioId.ofName? r.name).map fun s =>
    ⟨s, r.seed, r.scheduler.getD Config.mapScheduler, r.eventCount⟩

/-- The probes of a scenario. -/
def plan (r : ScenarioRun) : List Scenario.Probe :=
  Scenario.plan r.scenario r.seed r.scheduler r.events

/-- How a scenario went. -/
def finish (r : ScenarioRun) : Except String (Nat × Time) → ScenarioResult
  | .ok (executed, time) => ⟨r.scenario, r.scheduler, r.seed, executed, time, none⟩
  | .error failure => ⟨r.scenario, r.scheduler, r.seed, 0, .zero, some failure⟩

end ScenarioRun

/-- The world without the kernel that a scenario handed over. -/
def World.forgetInjected (w : World) : World :=
  { w with named := w.named.filter fun p => p.1 ≠ .injected }

namespace Machine

/-! ### Ends of calls -/

/-- Everything is abandoned. -/
def panic (m : Machine) (p : Panic) : Machine :=
  ⟨m.world.forgetInjected, [], some (.error p)⟩

/-- A command has ended: the frame that waits for its reply goes on, or the outermost call ends. -/
def deliver (m : Machine) (r : Reply) : Machine :=
  match m.stack with
  | [] => { m with result := some (.ok r) }
  | .answering reporting command left :: rest =>
    { m with
      world := if reporting then m.world.log (.did command r) else m.world
      stack := .body reporting left :: rest }
  | .scenario run (.judging saved probe left replies) :: rest =>
    let replies := r :: replies
    match probe.judge replies with
    | none => { m with stack := .scenario run (.probing saved left replies) :: rest }
    | some failure => { m with stack := .scenario run (.judged saved (.error failure)) :: rest }
  | _ => m

/-! ### Starts of calls -/

/-- An action starts: the journal tells the present of its target, and its body is next. -/
def startAction (m : Machine) (a : Action) : Machine :=
  let inBody (w : World) : Machine :=
    { m with world := w, stack := .body a.reporting a.body :: m.stack }
  match a.tag with
  | none => inBody m.world
  | some tag =>
    match m.world.nowOf a.target with
    | .error p => m.panic p
    | .ok (now, w) =>
      match w.contextOf a.target with
      | .error p => { m with world := w }.panic p
      | .ok (context, w) => inBody (w.log (.ran tag now context))

/-- The run loop of a kernel starts. -/
def beginRun (m : Machine) (id : KernelId) : Machine :=
  match m.world.engine? id with
  | some (.builtIn watched k) =>
    { m with
      world := m.world.setEngine id (.builtIn watched k.beginRun)
      stack := .running id :: m.stack }
  | _ => m.deliver .done

/-- The destruction of a kernel starts. -/
def beginDestroy (m : Machine) (id : KernelId) : Machine :=
  match m.world.engine? id with
  | some (.builtIn watched _) =>
    { m with
      world := if watched then m.world.report "destroy" else m.world
      stack := .destroying id :: m.stack }
  | _ => m.deliver .done

/-- A teardown starts: without a kernel it ends at once, otherwise the printers go first. -/
def beginTeardown (m : Machine) : Machine :=
  match m.world.slot with
  | none => m.deliver .done
  | some id =>
    { m with
      world := { m.world with printers := .none }
      stack := .clearing id :: m.stack }.beginDestroy id

/-- A command starts, and ends if it runs nothing. -/
def start (m : Machine) (c : Command) : Machine :=
  match c with
  | .run t =>
    match m.world.reach t with
    | .error p => m.panic p
    | .ok (id, w) => { m with world := w }.beginRun id
  | .destroy t =>
    match m.world.reach t with
    | .error p => m.panic p
    | .ok (id, w) => { m with world := w }.beginDestroy id
  | .teardown => m.beginTeardown
  | .scenario request =>
    match ScenarioRun.ofRequest? request with
    | none => m.deliver (.unknownScenario request.name)
    | some run => { m with stack := .scenario run .opened :: m.stack }.beginTeardown
  | c =>
    match m.world.perform c with
    | (.error p, w) => { m with world := w }.panic p
    | (.ok r, w) => { m with world := w }.deliver r

/-! ### Steps -/

/-- One turn of a run loop, `rest` being the frames below it. -/
def stepRun (m : Machine) (id : KernelId) (rest : List Frame) : Machine :=
  match m.world.engine? id with
  | some (.builtIn watched k) =>
    match k.dequeue with
    | .idle =>
      { m with world := m.world.setEngine id (.builtIn watched k.endRun), stack := rest }.deliver
        .done
    | .skipped payload k =>
      { m with
        world := (m.world.setEngine id (.builtIn watched k)).releaseAll payload.action?.toList }
    | .past payload k =>
      { m with
        world := (m.world.setEngine id (.builtIn watched k)).releaseAll
          payload.action?.toList }.panic .clockWentBack
    | .started e k =>
      match e.payload with
      | .halt => { m with world := m.world.setEngine id (.builtIn watched k.stop) }
      | .act a => { m with world := m.world.setEngine id (.builtIn watched k) }.startAction a
  | _ => { m with stack := rest }.deliver .done

/-- One turn of the destruction of a kernel. -/
def stepDestroy (m : Machine) (id : KernelId) (rest : List Frame) : Machine :=
  match m.world.engine? id with
  | some (.builtIn watched k) =>
    match k.popTeardown with
    | some (e, k) =>
      { m with world := m.world.setEngine id (.builtIn watched k) }.startAction e.action
    | none =>
      let swept := k.sweep
      { m with
        world := (m.world.setEngine id (.builtIn watched swept.2)).releaseAll swept.1
        stack := rest }.deliver .done
  | _ => { m with stack := rest }.deliver .done

/-- The slot is cleared, whatever kernel is in it by now. -/
def stepClear (m : Machine) (rest : List Frame) : Machine :=
  let w :=
    match m.world.slot with
    | none => m.world
    | some id => { m.world with slot := none }.abandon id
  { m with world := w, stack := rest }.deliver .done

/-- The plan of a scenario starts: the configuration is kept and the scheduler chosen. -/
def stepOpened (m : Machine) (run : ScenarioRun) (rest : List Frame) : Machine :=
  match m.world.config with
  | .error p => m.panic p
  | .ok saved =>
    match m.world.chooseScheduler run.scheduler with
    | (.error p, w) => { m with world := w }.panic p
    | (.ok (.refused e), w) =>
      { m with
        world := w
        stack := .scenario run (.judged saved (.error e.message)) :: rest }
    | (.ok _, w) =>
      { m with
        world := { w with observed := [] }
        stack := .scenario run (.probing saved run.plan []) :: rest }

/-- The configuration is restored and the result delivered. A configuration that would be refused
is not restored. -/
def stepRestore (m : Machine) (run : ScenarioRun) (saved : Config)
    (verdict : Except String (Nat × Time)) (rest : List Frame) : Machine :=
  match m.world.apply saved with
  | (.error p, w) => { m with world := w }.panic p
  | (.ok _, w) =>
    { m with world := w.forgetInjected, stack := rest }.deliver (.scenario (run.finish verdict))

/-- One step of a scenario. -/
def stepScenario (m : Machine) (run : ScenarioRun) (stage : ScenarioStage) (rest : List Frame) :
    Machine :=
  match stage with
  | .opened => m.stepOpened run rest
  | .probing saved [] replies =>
    { m with
      stack := .scenario run (.judged saved (.ok (Scenario.outcome replies))) :: rest }
  | .probing saved (probe :: left) replies =>
    { m with
      stack := .scenario run (.judging saved probe left replies) :: rest }.start probe.command
  | .judging saved _ left replies =>
    { m with stack := .scenario run (.probing saved left replies) :: rest }
  | .judged saved verdict =>
    { m with stack := .scenario run (.restoring saved verdict) :: rest }.beginTeardown
  | .restoring saved verdict => m.stepRestore run saved verdict rest

/-- One step of the topmost frame. -/
def step (m : Machine) : Machine :=
  match m.stack with
  | [] => m
  | .body _ [] :: rest => { m with stack := rest }
  | .body reporting (c :: left) :: rest =>
    { m with
      world := if reporting && c.settles then m.world.log (.began c.name) else m.world
      stack := .answering reporting c.name left :: rest }.start c
  | .answering reporting _ left :: rest => { m with stack := .body reporting left :: rest }
  | .running id :: rest => m.stepRun id rest
  | .destroying id :: rest => m.stepDestroy id rest
  | .clearing _ :: rest => m.stepClear rest
  | .scenario run stage :: rest => m.stepScenario run stage rest

/-! ### Whole calls -/

/-- The weight of a frame. -/
def frameWeight : Frame → Nat
  | .body _ left => bodyWeight left + 1
  | .answering _ _ left => bodyWeight left + 2
  | .running _ | .destroying _ | .clearing _ => 1
  | .scenario run stage =>
    match stage with
    | .opened => 16 * (run.events + 1) + 206
    | .probing _ left _ => Scenario.weight left + 5
    | .judging _ _ left _ => Scenario.weight left + 6
    | .judged .. => 4
    | .restoring .. => 1

/-- The weight of everything that is stored and everything that is executing. -/
def weight (m : Machine) : Nat := m.world.weight + total frameWeight m.stack

/-- `n` steps, or fewer if the outermost call ends before. -/
def steps : Nat → Machine → Machine
  | 0, m => m
  | n + 1, m => if m.stack.isEmpty then m else steps n m.step

/-- The machine after the outermost call. -/
def run (m : Machine) : Machine := steps m.weight m

/-- The machine right after a command was started in a world. -/
def ofCall (w : World) (c : Command) : Machine := start ⟨w, [], none⟩ c

end Machine

/-- How a command ends that is called from outside, and the world after it. -/
def World.call (w : World) (c : Command) : Except Panic Reply × World :=
  let m := (Machine.ofCall w c).run
  (m.result.getD (.ok .done), m.world)

end EventSim
