import EventSim.Scenario.Plan
import EventSim.World

/-! # Weights

The weight of a program bounds the number of steps that it can still take. A stored event weighs
more than the body that it turns into, a scheduling command more than the event that it stores, and
what carries a command out weighs less than the command. Since programs are finite trees, the
weight of everything that is stored and everything that is executing falls with every step of the
machine.
-/

namespace EventSim

/-- What the members of a list weigh together. -/
def total {α : Type} (weight : α → Nat) (l : List α) : Nat := l.foldr (fun x n => weight x + n) 0

/-- What a scenario weighs at most: its events, each with its probe and its fate, and the fixed
part of the longest plan. -/
def ScenarioRequest.weight (r : ScenarioRequest) : Nat := 16 * (r.eventCount + 1) + 206

mutual

/-- The weight of a command. -/
def Command.weight : Command → Nat
  | .schedule _ _ _ a => a.weight + 3
  | .scheduleEach _ delays _ a => delays.length * (a.weight + 2) + 2
  | .chain _ _ _ length _ => 4 * length + 2
  | .stopAfter .. => 4
  | .run _ => 3
  | .destroy _ => 3
  | .teardown => 4
  | .scenario r => r.weight + 4
  | .cancel .. | .remove .. | .isExpired .. | .delayLeft .. | .stop _ | .attach .. | .query ..
  | .inspect _ | .same .. | .forge .. | .build .. | .panic _ | .isPopulated | .attachNamed _
  | .install _ | .config _ | .registry _ | .printing _ | .trace _ | .observe _ | .observations
  | .capture | .isStored _ | .backendName _ | .idle => 1

/-- The weight of an action. -/
def Action.weight : Action → Nat
  | .mk _ _ _ body => bodyWeight body + 1

/-- The weight of a body. -/
def bodyWeight : List Command → Nat
  | [] => 0
  | c :: rest => c.weight + bodyWeight rest

end

/-- The weight of the payload of a stored event. -/
def Payload.weight : Payload Action → Nat
  | .halt => 1
  | .act a => a.weight + 1

/-- The weight of everything that a kernel stores. -/
def Kernel.weight (k : Kernel Action) : Nat :=
  total (fun e => e.payload.weight) k.scheduler.toList +
    total (fun e => e.action.weight + 1) k.teardowns

/-- The weight of everything behind an engine. -/
def Engine.weight : Engine Action → Nat
  | .builtIn _ k => k.weight
  | .fixed _ => 0

/-- The weight of everything that is stored. -/
def World.weight (w : World) : Nat := total Engine.weight w.engines

/-- The weight of the probes of a plan. -/
def Scenario.weight (probes : List Scenario.Probe) : Nat :=
  total (fun p => p.command.weight + 2) probes

end EventSim
