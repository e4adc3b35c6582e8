import EventSim.CommandLine.Options
import EventSim.Session

/-! # A batch of scenarios

The program runs the scenarios that its options choose under each of the schedulers that they
choose, and reports. `Batch.prepare` decides what is run, `Batch.carryOut` runs it, and
`Batch.conclude` sums up; in between, the caller reads the configuration file and writes the trace,
and says what came of it. `runIn` does all of it in a folder in memory.

Whatever is abandoned by a panic keeps the lines that it has logged so far.
-/

namespace EventSim.CommandLine

/-- The weight of a line of the log. -/
inductive Level where
  | info
  | error
  deriving DecidableEq

/-- A line of the log. -/
structure LogLine where
  level : Level
  text : String

/-- The line as it is written behind its stamp. -/
def LogLine.written (l : LogLine) : String :=
  (match l.level with
    | .info => "INFO"
    | .error => "ERROR") ++ " tempo_sim: " ++ l.text

/-- How the program ends. -/
inductive Exit where
  | success
  | failure
  | usage
  | panic (p : Panic)

/-- The number with which the program ends. -/
def Exit.code : Exit → Nat
  | .success => 0
  | .failure => 1
  | .usage => 2
  | .panic _ => 101

/-- What the program leaves behind. -/
structure Output where
  exit : Exit
  stdout : String
  /-- The lines about what is wrong with the options. -/
  complaints : List String
  log : List LogLine

namespace Options

/-- The seed; a zero stands for the reading of a clock. -/
def chosenSeed (o : Options) (clock : UInt64) : UInt64 :=
  match o.seed with
  | .none => 42
  | some s => if s = 0 then clock else s

/-- The number of events. -/
def chosenEvents (o : Options) : Nat := o.events.getD 1000

/-- The name of the chosen scenario. -/
def chosenScenario (o : Options) : String := o.scenario.getD "all"

/-- The chosen scenarios. -/
def scenarios (o : Options) : Option (List ScenarioId) :=
  if o.chosenScenario = "all" then some ScenarioId.all
  else (ScenarioId.ofName? o.chosenScenario).map fun s => [s]

end Options

/-- What is to be run, what has been run, the newest result first, and the log, the newest line
first. -/
structure Batch where
  options : Options
  seed : UInt64
  scenarios : List ScenarioId
  schedulers : List String
  world : World
  results : List ScenarioResult
  newestFirst : List LogLine

namespace Batch

/-! ### Wording -/

/-- A line for the log that tells something. -/
def info (text : String) : LogLine := ⟨.info, text⟩

/-- A line for the log that complains. -/
def error (text : String) : LogLine := ⟨.error, text⟩

/-- A line across the log. -/
def rule : LogLine := info (String.ofList (List.replicate 53 '━'))

/-- The lines before everything else, the newest first. -/
def banner : List LogLine := [rule, info "Tempo Simulator v0.1.0"]

/-- What is logged about a result. -/
def resultLine (r : ScenarioResult) : LogLine :=
  let run := r.scenario.name ++ " [" ++ r.scheduler ++ "] (seed=" ++ toString r.seed.toNat ++ ")"
  match r.failure with
  | none => info ("✓ " ++ run ++ " PASSED")
  | some failure => error ("✗ " ++ run ++ " FAILED: " ++ failure)

/-- What is logged about a failure at the end. -/
def failureLine (r : ScenarioResult) : LogLine :=
  error ("  - " ++ r.scenario.name ++ " [" ++ r.scheduler ++ "] seed=" ++ toString r.seed.toNat ++
    ": " ++ r.failure.getD "unknown")

/-- What is logged about a configuration file that was loaded. -/
def loadedLine (path : String) (c : Config) : LogLine :=
  info ("Loaded " ++ path ++ ": kernel=" ++ c.kernelType ++ " scheduler=" ++ c.schedulerType)

/-- Why a file could not be read. -/
def unreadableMessage (path : String) : FileContent → String
  | .closed fault => "cannot read " ++ path ++ ": " ++ fault.message
  | .undecodable | .text _ => "cannot read " ++ path ++ ": stream did not contain valid UTF-8"

/-- A list of names to choose from. -/
def available (what : String) (names : List String) : String :=
  "Available " ++ what ++ ": " ++ ", ".intercalate (names ++ ["all"])

/-! ### Preparation -/

/-- The program ends for the given reasons, `log` being the newest line first. -/
def refuse (log : List LogLine) (complaints : List String) : Output :=
  ⟨.failure, "", complaints, log.reverse⟩

/-- The program ends in a panic. -/
def abandon (log : List LogLine) (p : Panic) : Output := ⟨.panic p, "", [], log.reverse⟩

/-- The world with the configuration of a file, and the log. -/
def configure (w : World) (log : List LogLine) (path : String) (content : FileContent) :
    Except Output (World × List LogLine) :=
  match w.load content with
  | (.ok (.config c), w) => .ok (w, loadedLine path c :: log)
  | (.ok (.invalid e), _) =>
    .error (refuse log ["Error: invalid configuration in " ++ path ++ ": " ++ e.message])
  | (.ok _, _) => .error (refuse log ["Error: " ++ unreadableMessage path content])
  | (.error p, _) => .error (abandon log p)

/-- The batch that the options choose in a world, the trace started anew. -/
def choose (o : Options) (clock : UInt64) (w : World) (log : List LogLine) :
    Except Output Batch :=
  match o.scenarios with
  | none =>
    .error (refuse log
      ["Error: " ++ ScenarioId.unknownMessage o.chosenScenario,
        available "scenarios" (ScenarioId.all.map ScenarioId.name)])
  | some scenarios =>
    match w.select o.scheduler with
    | .error p => .error (abandon log p)
    | .ok (.error e) =>
      .error (refuse log
        ["Error: " ++ e.message, available "schedulers" w.registry.schedulers.names])
    | .ok (.ok schedulers) =>
      .ok ⟨o, o.chosenSeed clock, scenarios, schedulers,
        { w with trace := .start "tempo-sim" }, [], log⟩

/-- The batch of the options, in the given environment and with the content of the configuration
file. -/
def prepare (o : Options) (environment : Option String) (clock : UInt64) (content : FileContent) :
    Except Output Batch :=
  let log := if o.json then [] else banner
  let w := World.pristine environment
  match o.config with
  | none => choose o clock w log
  | some path =>
    match configure w log path content with
    | .error out => .error out
    | .ok (w, log) => choose o clock w log

/-! ### Execution -/

/-- The batch after one more scenario. -/
def runOne (b : Batch) (scheduler : String) (s : ScenarioId) : Except Output Batch :=
  match b.world.call (.scenario ⟨s.name, b.seed, some scheduler, some b.options.chosenEvents⟩) with
  | (.error p, _) => .error (abandon b.newestFirst p)
  | (.ok (.scenario r), w) =>
    .ok { b with
      world := w
      results := r :: b.results
      newestFirst := if b.options.json then b.newestFirst else resultLine r :: b.newestFirst }
  | (.ok _, w) => .ok { b with world := w }

/-- The batch after the scenarios, one after the other. -/
def runAll (b : Batch) : List (String × ScenarioId) → Except Output Batch
  | [] => .ok b
  | (scheduler, s) :: rest =>
    match b.runOne scheduler s with
    | .error out => .error out
    | .ok b => b.runAll rest

/-- What is run, in order: all scenarios under the first scheduler, then under the next. -/
def runs (b : Batch) : List (String × ScenarioId) :=
  b.schedulers.flatMap fun scheduler => b.scenarios.map fun s => (scheduler, s)

/-- The batch after everything has been run. -/
def carryOut (b : Batch) : Except Output Batch := b.runAll b.runs

/-! ### Conclusion -/

/-- The failed runs, in order. -/
def failures (b : Batch) : List ScenarioResult :=
  b.results.reverse.filter fun r => !r.passed

/-- A result as a JSON value. -/
def resultJson (r : ScenarioResult) : Json.Value :=
  .object [("events_executed", .integer r.eventsExecuted),
    ("failure_reason", (r.failure.map Json.Value.string).getD .null),
    ("final_time", .integer r.finalTime.ticks), ("passed", .bool r.passed),
    ("scenario", .string r.scenario.name), ("scheduler", .string r.scheduler),
    ("seed", .integer r.seed.toNat)]

/-- The summary as a JSON value, its fields in the order of their names. -/
def summaryJson (b : Batch) : Json.Value :=
  .object [("failed", .integer b.failures.length),
    ("passed", .integer (b.results.length - b.failures.length : Nat)),
    ("results", .list (b.results.reverse.map resultJson)), ("total", .integer b.results.length)]

/-- The summary in the log. -/
def summaryLines (b : Batch) : List LogLine :=
  let total := toString b.results.length
  rule ::
    match b.failures with
    | [] => [info ("✅ All " ++ total ++ " scenario runs passed!")]
    | failures =>
      error ("❌ " ++ toString failures.length ++ "/" ++ total ++ " scenario runs failed!") ::
        failures.map failureLine

/-- What is logged about the trace that was or was not written. -/
def traceLine (b : Batch) (path : String) : Option FileFault → LogLine
  | none =>
    info ("Wrote " ++ toString b.world.trace.report.traceCount ++ " trace records to " ++ path)
  | some fault => error ("Failed to write metrics: " ++ fault.details)

/-- What the program leaves behind, `fault` being what was wrong with the file for the trace. -/
def conclude (b : Batch) (fault : Option FileFault) : Output where
  exit := if b.failures.isEmpty then .success else .failure
  stdout := if b.options.json then String.ofList (b.summaryJson.pretty ++ ['\n']) else ""
  complaints := []
  log :=
    b.newestFirst.reverse ++
      (match b.options.metrics with
        | none => []
        | some path => [b.traceLine path fault]) ++
      if b.options.json then [] else b.summaryLines

end Batch

/-! ### The program in a folder -/

/-- The text that answers a request for help. -/
def helpText : String := "\n".intercalate
  ["Run end-to-end scenarios against the Tempo simulator facade", "",
    "Usage: tempo-sim [OPTIONS]", "", "Options:",
    "  -s, --seed <SEED>            " ++
      "Seed for the random workload (0 = random from time) [default: 42]",
    "  -S, --scenario <SCENARIO>    " ++
      "Scenario to run (ordering, fifo_ties, cancel, stop_at, destroy, context_propagation, " ++
      "injection, restart, random_load, all) [default: all]",
    "      --scheduler <SCHEDULER>  " ++
      "Scheduler registry name, or `all` for every registered scheduler " ++
      "(default: the configured SchedulerType)",
    "  -e, --events <EVENTS>        Workload size for the bulk scenarios [default: 1000]",
    "  -v, --verbose                Verbose output",
    "      --json                   JSON output for CI parsing",
    "      --config <CONFIG>        " ++
      "JSON file with global values (SimulatorImplementationType, SchedulerType)",
    "      --metrics <METRICS>      Write the scheduling trace to this JSON file",
    "  -h, --help                   Print help", ""]

/-- What the program leaves behind if its arguments make no options. -/
def Refusal.output : Refusal → Output
  | .help => ⟨.success, helpText, [], []⟩
  | .usage => ⟨.usage, "", [], []⟩

/-- What the program leaves behind that is run with arguments in a folder, and the folder
afterwards. -/
def runIn (d : Folder) (arguments : List String) (environment : Option String) (clock : UInt64) :
    Output × Folder :=
  match Options.read arguments with
  | .error r => (r.output, d)
  | .ok o =>
    match Batch.prepare o environment clock (d.read (o.config.getD "")) with
    | .error out => (out, d)
    | .ok b =>
      match b.carryOut with
      | .error out => (out, d)
      | .ok b =>
        match o.metrics with
        | none => (b.conclude none, d)
        | some path =>
          match d.write path b.world.trace.report.fileText with
          | .error fault => (b.conclude (some fault), d)
          | .ok d => (b.conclude none, d)

end EventSim.CommandLine
