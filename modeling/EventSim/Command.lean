import EventSim.Files
import EventSim.Kernel
import EventSim.Registry
import EventSim.Scenario.Basic
import EventSim.Trace

/-! # Commands and actions

Programs are data. A `Command` is one call into the simulation, addressed to the facade or to a
kernel by name; an `Action` is what a scheduled event does when it runs, a list of commands. A
scheduling command carries the action, so a program is a finite tree. Every command ends in a
`Reply` or in a panic, and what happens on the way is told by journal entries.

Handles are known to programs by names: a scheduling command that succeeds saves its handle under
one, and a name under which nothing was saved stands for the handle of no kernel.
-/

namespace EventSim

/-- The name of a kernel that a program made. -/
inductive KernelName where
  /-- The kernels of a session, in the order of their making. -/
  | numbered (n : Nat)
  /-- The kernel that a scenario hands over. -/
  | injected
  deriving DecidableEq

/-- What a command is addressed to. -/
inductive Target where
  | facade
  | kernel (name : KernelName)
  deriving DecidableEq

/-- The name of a saved handle. -/
inductive HandleName where
  | word (s : String)
  | numbered (n : Nat)
  deriving DecidableEq

/-- A question to a kernel. -/
inductive Query where
  | isFinished
  | now
  | context
  | executed
  | systemId
  | greatestTime
  | identity
  deriving DecidableEq

/-- What writes a part of a stamp. -/
inductive Printer where
  /-- The time in seconds, or the number of the context. -/
  | standard
  /-- One letter. -/
  | fixed
  /-- Nothing; it fails. -/
  | failing
  deriving DecidableEq

/-- The two parts of a stamp. -/
inductive StampPart where
  | time
  | node
  deriving DecidableEq

/-- A call on the global configuration. -/
inductive ConfigCall where
  | get
  | chooseKernel (name : String)
  | chooseScheduler (name : String)
  | assign (text : String)
  | applyJson (text : String)
  | reset
  | load (content : FileContent)
  | select (name : Option String)
  deriving DecidableEq

/-- A call on the registry. -/
inductive RegistryCall where
  | kernelNames
  | schedulerNames
  | lookupKernel (name : String)
  | lookupScheduler (name : String)
  | registerKernel (name : String) (spec : KernelSpec)
  | registerScheduler (name : String) (backend : Backend)
  deriving DecidableEq

/-- A call on the diagnostic printers. -/
inductive PrinterCall where
  | install (part : StampPart) (printer : Option Printer)
  | installed
  | stamp
  | print (part : StampPart)
  deriving DecidableEq

/-- A call on the trace. -/
inductive TraceCall where
  | start (name : String)
  | clear
  | report
  deriving DecidableEq

/-- A kernel to hand to the facade. -/
inductive KernelSource where
  | held (name : KernelName)
  | fresh (spec : KernelSpec)
  deriving DecidableEq

/-- What an action of a scenario notes down. -/
inductive Sighting where
  | number (n : Int)
  | label (s : String)
  | now
  | context
  | nowAnd (i : Nat)
  deriving DecidableEq

/-- A note of an action. -/
inductive Observation where
  | number (n : Int)
  | label (s : String)
  | timed (t : Time) (i : Nat)
  deriving DecidableEq

mutual

/-- One call into the simulation. -/
inductive Command where
  | idle
  | schedule (target : Target) (timing : Timing) (name : HandleName) (action : Action)
  /-- An event for each delay; the position of the delay is added to the tag, and to the name
  unless one is given. -/
  | scheduleEach (target : Target) (delays : List Time) (name : Option HandleName)
      (action : Action)
  /-- An event that schedules the next one of a chain of that length. -/
  | chain (target : Target) (tag : String) (delay : Time) (length : Nat) (name : HandleName)
  | stopAfter (target : Target) (delay : Time) (name : HandleName)
  | cancel (target : Target) (name : HandleName)
  | remove (target : Target) (name : HandleName)
  | isExpired (target : Target) (name : HandleName)
  | delayLeft (target : Target) (name : HandleName)
  | run (target : Target)
  | stop (target : Target)
  | destroy (target : Target)
  | attach (target : Target) (backend : Backend)
  | query (target : Target) (query : Query)
  | inspect (name : HandleName)
  | same (a b : HandleName)
  /-- A handle put together from the one called `source` and other parts. -/
  | forge (source : HandleName) (time : Option Time) (uid : Option Nat) (context : Option Context)
      (teardown : Bool) (name : HandleName)
  | build (name : Option KernelName) (spec : KernelSpec)
  | panic (message : String)
  | isPopulated
  | attachNamed (name : String)
  | install (source : KernelSource)
  | teardown
  | scenario (request : ScenarioRequest)
  | config (call : ConfigCall)
  | registry (call : RegistryCall)
  | printing (call : PrinterCall)
  | trace (call : TraceCall)
  | observe (sighting : Sighting)
  | observations
  | capture
  | isStored (name : HandleName)
  | backendName (kernel : KernelName)

/-- What an event does when it runs. -/
inductive Action where
  /-- An action with a tag is told in the journal when it runs and when it is given up; one that
  is `reporting` also has the commands of its body told. `target` is asked for the present. -/
  | mk (tag : Option String) (reporting : Bool) (target : Target) (body : List Command)

end

namespace Action

/-- The name of the action in the journal. -/
def tag : Action → Option String
  | mk tag _ _ _ => tag

/-- The commands of its body are told in the journal. -/
def reporting : Action → Bool
  | mk _ reporting _ _ => reporting

/-- What is asked for the present when the action runs. -/
def target : Action → Target
  | mk _ _ target _ => target

/-- The commands that it carries out. -/
def body : Action → List Command
  | mk _ _ _ body => body

/-- The action with a number added to its tag. -/
def numbered (a : Action) (i : Nat) : Action :=
  mk (a.tag.map (· ++ toString i)) a.reporting a.target a.body

/-- An action that nobody hears of. -/
def silent (body : List Command) : Action := mk none false .facade body

end Action

/-- How a command ended. -/
inductive Reply where
  | done
  | refused (error : SimError)
  | handle (h : Handle)
  | many (replies : List Reply)
  | flag (b : Bool)
  | time (t : Time)
  | context (c : Context)
  | count (n : Nat)
  | systemId (n : UInt32)
  | identity (id : KernelId)
  | shown (h : Handle)
  | name (s : String)
  | names (l : List String)
  | config (c : Config)
  | unreadable (content : FileContent)
  | invalid (error : SimError)
  | installed (time node : Bool)
  | text (s : String)
  /-- Printing failed after this text. -/
  | cutShort (s : String)
  | report (r : Report)
  | scenario (r : ScenarioResult)
  | unknownScenario (name : String)
  | observations (l : List Observation)
  | captured (executed : Nat) (now : Time)

/-- What the journal tells. -/
inductive Entry where
  /-- A command of an action starts that may give up many actions. -/
  | began (command : String)
  /-- An action starts. -/
  | ran (tag : String) (now : Time) (context : Context)
  /-- A command of an action has ended. -/
  | did (command : String) (reply : Reply)
  /-- An action was given up without having run. -/
  | released (tag : String)
  /-- A watched kernel reports: a kernel is in the slot, a printer is installed. -/
  | watched (event : String) (populated installed : Bool)

namespace Command

/-- The name of a command in the journal. -/
def name : Command → String
  | idle => "idle"
  | schedule _ timing _ _ =>
    match timing with
    | .after _ => "schedule"
    | .immediately => "schedule_now"
    | .under _ _ => "schedule_ctx"
    | .atTeardown => "schedule_destroy"
  | scheduleEach .. => "fill"
  | chain .. => "chain"
  | stopAfter .. => "stop_after"
  | cancel .. => "cancel"
  | remove .. => "remove"
  | isExpired .. => "expired"
  | delayLeft .. => "delay_left"
  | run _ => "run"
  | stop _ => "stop"
  | destroy _ => "destroy"
  | attach .. => "set_scheduler"
  | query _ q =>
    match q with
    | .isFinished => "finished"
    | .now => "now"
    | .context => "context"
    | .executed => "count"
    | .systemId => "system_id"
    | .greatestTime => "max"
    | .identity => "impl"
  | inspect _ => "show"
  | same .. => "same"
  | forge .. => "forge"
  | build .. => "new"
  | panic _ => "panic"
  | isPopulated => "peek"
  | attachNamed _ => "set_scheduler_type"
  | install _ => "set_implementation"
  | teardown => "teardown"
  | scenario _ => "scenario"
  | config call =>
    match call with
    | .get => "cfg"
    | .chooseKernel _ => "cfg_impl"
    | .chooseScheduler _ => "cfg_scheduler"
    | .assign _ => "cfg_assign"
    | .applyJson _ => "cfg_apply"
    | .reset => "cfg_reset"
    | .load _ => "load_config"
    | .select _ => "select"
  | registry call =>
    match call with
    | .kernelNames => "impl_names"
    | .schedulerNames => "scheduler_names"
    | .lookupKernel _ => "lookup_impl"
    | .lookupScheduler _ => "lookup_scheduler"
    | .registerKernel .. => "register_impl"
    | .registerScheduler .. => "register_scheduler"
  | printing call =>
    match call with
    | .install .time _ => "time_printer"
    | .install .node _ => "node_printer"
    | .installed => "printers"
    | .stamp => "stamp"
    | .print .time => "print_time"
    | .print .node => "print_node"
  | trace call =>
    match call with
    | .start _ => "m_init"
    | .clear => "m_clear"
    | .report => "m_report"
  | observe _ => "observe"
  | observations => "observations"
  | capture => "capture"
  | isStored _ => "is_stored"
  | backendName _ => "backend_name"

/-- The names of the commands that may give up many actions at once. -/
def settlingNames : List String := ["destroy", "teardown", "scenario"]

/-- The command may give up many actions at once. -/
def settles (c : Command) : Bool := settlingNames.contains c.name

end Command

end EventSim
