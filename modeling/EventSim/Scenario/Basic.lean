import EventSim.Time

/-! # Scenarios

A scenario drives the facade end to end and checks one of its guarantees. This module has the
names: `ScenarioId.ofName?` reads a name or one of its short forms in either case, and a result
says how a run went.
-/

namespace EventSim

/-- The guarantee that a scenario checks. -/
inductive ScenarioId where
  | ordering
  | fifoTies
  | cancel
  | stopAt
  | destroy
  | contextPropagation
  | injection
  | restart
  | randomLoad
  deriving DecidableEq, Repr

namespace ScenarioId

/-- All scenarios, in the order in which they are run. -/
def all : List ScenarioId :=
  [.ordering, .fifoTies, .cancel, .stopAt, .destroy, .contextPropagation, .injection, .restart,
    .randomLoad]

/-- The name of a scenario. -/
def name : ScenarioId → String
  | .ordering => "ordering"
  | .fifoTies => "fifo_ties"
  | .cancel => "cancel"
  | .stopAt => "stop_at"
  | .destroy => "destroy"
  | .contextPropagation => "context_propagation"
  | .injection => "injection"
  | .restart => "restart"
  | .randomLoad => "random_load"

/-- The short form of a name, if there is one. -/
def shortName? : ScenarioId → Option String
  | .fifoTies => some "fifo"
  | .stopAt => some "stop"
  | .contextPropagation => some "context"
  | .randomLoad => some "random"
  | _ => none

/-- What a scenario does. -/
def description : ScenarioId → String
  | .ordering => "Schedule at 5, 1, 3; expect execution at 1, 3, 5"
  | .fifoTies => "Many events at one instant run first-in first-out"
  | .cancel => "Cancel and remove pending events; none execute"
  | .stopAt => "Stop at t=3 with events at 1, 2, 4, 5; only 1 and 2 run"
  | .destroy => "Destroy events run once at teardown, never during run"
  | .contextPropagation => "Context 7 flows into events scheduled from inside"
  | .injection => "Install a kernel before first use; its identity is kept"
  | .restart => "Tear down mid-run, rebuild lazily, old handles expire"
  | .randomLoad => "Seeded random delays and cancellations, checked against a model"

/-- The scenario of a name in either case. The names hold only letters whose capitals are ASCII,
so lowering those decides the same texts as lowering every letter. -/
def ofName? (text : String) : Option ScenarioId :=
  let lower := text.map Char.toLower
  all.find? fun s => s.name == lower || s.shortName? == some lower

/-- What is said about a text that names no scenario. -/
def unknownMessage (text : String) : String := "Unknown scenario: " ++ text

end ScenarioId

/-- What to run: a scenario by its name, with a seed, a scheduler other than the ordered map, and a
number of events other than a thousand for the scenarios with many. -/
structure ScenarioRequest where
  name : String
  seed : UInt64
  scheduler : Option String
  events : Option Nat
  deriving DecidableEq

/-- The number of events, at least one. -/
def ScenarioRequest.eventCount (r : ScenarioRequest) : Nat := (r.events.map (max · 1)).getD 1000

/-- How a scenario went: counts and times are zero if it failed. -/
structure ScenarioResult where
  scenario : ScenarioId
  scheduler : String
  seed : UInt64
  eventsExecuted : Nat
  finalTime : Time
  failure : Option String
  deriving DecidableEq

/-- The scenario found what it expects. -/
def ScenarioResult.passed (r : ScenarioResult) : Bool := r.failure.isNone

end EventSim
