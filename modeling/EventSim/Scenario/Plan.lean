import EventSim.Command
import EventSim.Random.Workload
import EventSim.Text.Quoted

/-! # Plans of the scenarios

A plan is a list of probes: a command and a judgement of its reply, which may look back at all the
replies so far and, if it is not content, says what is wrong. The first failure ends the plan. The
actions of a scenario note what they see, so that the order of execution can be judged afterwards.
-/

namespace EventSim.Scenario

/-- A command and what is wrong with its reply, if anything; the replies so far come newest
first. -/
structure Probe where
  command : Command
  judge : List Reply → Option String

/-! ### Wording -/

/-- A list in a message. -/
def listText (items : List String) : String := "[" ++ ", ".intercalate items ++ "]"

/-- What a message says of the place where two lists part. -/
def placeText (place : Option String) : String :=
  match place with
  | none => "None"
  | some p => "Some(" ++ p ++ ")"

/-- A note in a message. -/
def noteText : Observation → String
  | .number n => toString n
  | .label s => Text.quoted s
  | .timed t i => "(" ++ toString t.ticks ++ ", " ++ toString i ++ ")"

/-- Notes in a message. -/
def notesText (notes : List Observation) : String := listText (notes.map noteText)

/-! ### Judgements -/

/-- Nothing is asked of the reply. -/
def anything (_ : List Reply) : Option String := none

/-- The call was not refused. -/
def accepted : List Reply → Option String
  | .refused e :: _ => some e.message
  | _ => none

/-- The answer is yes, or else the failure is as given. -/
def isTrue (failure : String) : List Reply → Option String
  | .flag true :: _ => none
  | _ => some failure

/-- The answer is no, or else the failure is as given. -/
def isFalse (failure : String) : List Reply → Option String
  | .flag false :: _ => none
  | _ => some failure

/-- The time is as expected, or else the failure is worded from its text. -/
def isTime (expected : Int) (failure : String → String) : List Reply → Option String
  | .time t :: _ => if t.ticks = expected then none else some (failure t.text)
  | _ => some (failure "")

/-- The count is as expected, or else the failure is worded from its text. -/
def isCount (expected : Nat) (failure : String → String) : List Reply → Option String
  | .count n :: _ => if n = expected then none else some (failure (toString n))
  | _ => some (failure "")

/-- The notes are as expected, or else the failure is worded from their text. -/
def sees (expected : List Observation) (failure : String → String) : List Reply → Option String
  | .observations notes :: _ =>
    if notes = expected then none else some (failure (notesText notes))
  | _ => some (failure "")

/-! ### Commands -/

/-- An event of the facade that carries out `body`, its handle saved under a number. -/
def event (timing : Timing) (number : Nat) (body : List Command) : Command :=
  .schedule .facade timing (.numbered number) (.silent body)

/-- An event that must be accepted. -/
def scheduled (timing : Timing) (number : Nat) (body : List Command) : Probe :=
  ⟨event timing number body, accepted⟩

/-- The facade runs. -/
def runs : Probe := ⟨.run .facade, anything⟩

/-- A delay of some ticks. -/
def ticks (n : Int) : Time := .clamp n

/-- The outcome is taken down. -/
def captured : Probe := ⟨.capture, anything⟩

/-! ### Plans -/

/-- Events scheduled out of order. -/
def ordering : List Probe :=
  [scheduled (.after (ticks 5)) 0 [.observe .now],
    scheduled (.after (ticks 1)) 1 [.observe .now],
    scheduled (.after (ticks 3)) 2 [.observe .now],
    runs,
    ⟨.observations, sees [.number 1, .number 3, .number 5] fun seen =>
      "executed at " ++ seen ++ ", expected [1, 3, 5]"⟩,
    ⟨.query .facade .now, isTime 5 fun now => "clock at " ++ now ++ ", expected 5"⟩,
    ⟨.query .facade .isFinished, isTrue "events left after run"⟩,
    captured]

/-- The first place at which a note is not its own position. -/
def firstOutOfOrder : Nat → List Observation → Option String
  | _, [] => none
  | i, .number n :: rest =>
    if n = i then firstOutOfOrder (i + 1) rest
    else some ("(" ++ toString i ++ ", " ++ toString n ++ ")")
  | i, _ :: rest => firstOutOfOrder (i + 1) rest

/-- All of `n` events ran, in the order of their scheduling. -/
def inOrder (n : Nat) : List Reply → Option String
  | .observations notes :: _ =>
    if notes.length ≠ n then
      some (toString notes.length ++ " of " ++ toString n ++ " events executed")
    else
      match firstOutOfOrder 0 notes with
      | none => none
      | place => some ("tie broken out of order at " ++ placeText place)
  | _ => some ""

/-- Many events at one time. -/
def fifoTies (events : Nat) : List Probe :=
  (List.range events).map (fun i => scheduled (.after (ticks 10)) i [.observe (.number i)]) ++
    [runs, ⟨.observations, inOrder events⟩, captured]

/-- One event of three is left. -/
def cancel : List Probe :=
  [scheduled (.after (ticks 10)) 0 [.observe (.label "cancelled")],
    scheduled (.after (ticks 10)) 1 [.observe (.label "removed")],
    scheduled (.after (ticks 10)) 2 [.observe (.label "kept")],
    ⟨.cancel .facade (.numbered 0), anything⟩,
    ⟨.remove .facade (.numbered 1), anything⟩,
    ⟨.isExpired .facade (.numbered 0), isTrue "cancelled event not expired"⟩,
    ⟨.isExpired .facade (.numbered 1), isTrue "removed event not expired"⟩,
    ⟨.isExpired .facade (.numbered 2), isFalse "live event reported expired"⟩,
    runs,
    ⟨.observations, sees [.label "kept"] fun seen => "executed " ++ seen⟩,
    ⟨.query .facade .executed, isCount 1 fun n => "event_count " ++ n ++ " counts skipped events"⟩,
    captured]

/-- A stop between the events. -/
def stopAt : List Probe :=
  [1, 2, 4, 5].map (fun d : Nat => scheduled (.after (ticks d)) d [.observe (.number d)]) ++
    [⟨.stopAfter .facade (ticks 3) (.numbered 0), accepted⟩,
      runs,
      ⟨.observations, sees [.number 1, .number 2] fun seen =>
        "executed " ++ seen ++ " before stop"⟩,
      ⟨.query .facade .now, isTime 3 fun now => "stopped at " ++ now⟩,
      ⟨.query .facade .isFinished, isFalse "events at 4 and 5 were lost"⟩,
      captured]

/-- Three teardown events. -/
def destroy : List Probe :=
  [1, 2, 3].map (fun d : Nat => ⟨event .atTeardown d [.observe (.number d)], anything⟩) ++
    [scheduled (.after (ticks 2)) 0 [],
      runs,
      ⟨.observations, sees [] fun _ => "destroy event ran during run()"⟩,
      captured,
      ⟨.teardown, anything⟩,
      ⟨.teardown, anything⟩,
      ⟨.observations, sees [.number 1, .number 2, .number 3] fun seen =>
        "destroy events ran as " ++ seen⟩]

/-- The context after the run is none, or else the failure says which. -/
def outside : List Reply → Option String
  | .context c :: _ =>
    if c = noContext then none
    else some ("context " ++ toString c.toNat ++ " leaked out of run()")
  | _ => some ""

/-- An event in a context schedules another. -/
def contextPropagation : List Probe :=
  [scheduled (.under 7 (ticks 1)) 0
      [.observe .context, event (.after (ticks 1)) 1 [.observe .context]],
    runs,
    ⟨.observations, sees [.number 7, .number 7] fun seen =>
      "contexts " ++ seen ++ ", expected [7, 7]"⟩,
    ⟨.query .facade .context, outside⟩,
    captured]

/-- The kernel that the scenario hands over. -/
def injected : Target := .kernel .injected

/-- The name of the scheduler of the kernel, the newest reply, is the one of the registry, the
reply before. -/
def sameBackend : List Reply → Option String
  | .name own :: .name expected :: _ =>
    if own = expected then none
    else some ("injected kernel runs " ++ own ++ ", expected " ++ expected)
  | _ => some ""

/-- The last two identities are the same, or else the failure is as given. -/
def sameIdentity (failure : String) : List Reply → Option String
  | .identity a :: .identity b :: _ => if a = b then none else some failure
  | _ => some failure

/-- The number of the logical process is as expected. -/
def isSystem (expected : UInt32) : List Reply → Option String
  | .systemId n :: _ => if n = expected then none else some ("system id " ++ toString n.toNat)
  | _ => some ""

/-- A second kernel was refused because there is one. -/
def refusedSecond : List Reply → Option String
  | .refused .kernelPresent :: _ => none
  | .refused e :: _ => some ("second injection returned Err(" ++ e.message ++ ")")
  | _ => some "second injection returned Ok(())"

/-- A kernel is handed over before first use. -/
def injection (seed : UInt64) (scheduler : String) : List Probe :=
  let systemId := (seed % 1024).toUInt32
  [⟨.build (some .injected) (.builtIn systemId), anything⟩,
    ⟨.install (.held .injected), accepted⟩,
    ⟨.registry (.lookupScheduler scheduler), accepted⟩,
    ⟨.backendName .injected, sameBackend⟩,
    ⟨.query injected .identity, anything⟩,
    ⟨.query .facade .identity, sameIdentity "facade replaced the injected kernel"⟩,
    ⟨.query .facade .systemId, isSystem systemId⟩,
    ⟨.install (.fresh (.builtIn 0)), refusedSecond⟩,
    scheduled (.after (ticks 4)) 0 [],
    runs,
    ⟨.query injected .now, isTime 4 fun _ => "events did not reach the injected kernel"⟩,
    captured]

/-- The identity that comes first among the replies is another one than the newest. -/
def otherIdentity : List Reply → Option String
  | .identity a :: rest =>
    let earlier := rest.findSome? fun
      | .identity b => some b
      | _ => none
    if earlier = some a then some "kernel was not rebuilt" else none
  | _ => some ""

/-- A kernel is torn down in the middle of its run and built again. -/
def restart : List Probe :=
  [scheduled (.after (ticks 1)) 0 [],
    scheduled (.after (ticks 10)) 1 [],
    ⟨.stopAfter .facade (ticks 5) (.numbered 2), accepted⟩,
    runs,
    ⟨.query .facade .identity, anything⟩,
    ⟨.teardown, anything⟩,
    ⟨.isStored (.numbered 1), isFalse "teardown kept a pending action alive"⟩,
    ⟨.isPopulated, isFalse "slot populated after teardown"⟩,
    ⟨.isExpired .facade (.numbered 1), isTrue "handle survived teardown"⟩,
    ⟨.query .facade .now, isTime 0 fun now => "rebuilt kernel starts at " ++ now⟩,
    ⟨.query .facade .identity, otherIdentity⟩,
    ⟨.cancel .facade (.numbered 1), anything⟩,
    ⟨.isExpired .facade (.numbered 1), isTrue "stale handle revived"⟩,
    scheduled (.after (ticks 2)) 3 [],
    runs,
    ⟨.query .facade .now, isTime 2 fun now => "rebuilt kernel ended at " ++ now⟩,
    captured]

/-! ### The random workload -/

/-- The events that run, in the order in which they must. -/
def expectedRun (workload : List (Nat × Random.Fate)) : List (Nat × Nat) :=
  let kept := workload.zipIdx.filterMap fun ((d, fate), i) =>
    if fate = .kept then some (d, i) else none
  kept.mergeSort fun a b => a.1 < b.1 || (a.1 == b.1 && a.2 ≤ b.2)

/-- The first position at which the notes are not as expected. -/
def divergence : Nat → List Observation → List (Nat × Nat) → Option Nat
  | i, .timed t n :: notes, (d, m) :: expected =>
    if t.ticks = d ∧ n = m then divergence (i + 1) notes expected else some i
  | i, _ :: _, _ :: _ => some i
  | _, _, _ => none

/-- The events that ran are those expected. -/
def follows (expected : List (Nat × Nat)) : List Reply → Option String
  | .observations notes :: _ =>
    if notes.length ≠ expected.length then
      some (toString notes.length ++ " events executed, model expects " ++
        toString expected.length)
    else
      match divergence 0 notes expected with
      | none => none
      | some i =>
        some ("execution diverges from model at " ++ placeText (some (toString i)))
  | _ => some ""

/-- The command that decides the fate of an event. -/
def fateCommand (i : Nat) : Random.Fate → Option Probe
  | .kept => none
  | .cancelled => some ⟨.cancel .facade (.numbered i), anything⟩
  | .removed => some ⟨.remove .facade (.numbered i), anything⟩

/-- The events of a workload, some of which are cancelled or removed. -/
def randomLoad (workload : List (Nat × Random.Fate)) : List Probe :=
  let expected := expectedRun workload
  workload.zipIdx.map (fun ((d, _), i) =>
      scheduled (.after (ticks d)) i [.observe (.nowAnd i)]) ++
    workload.zipIdx.filterMap (fun ((_, fate), i) => fateCommand i fate) ++
    [runs,
      ⟨.observations, follows expected⟩,
      ⟨.query .facade .executed, isCount expected.length fun n =>
        "event_count " ++ n ++ " vs " ++ toString expected.length⟩,
      captured]

/-- The plan of a scenario. -/
def plan (scenario : ScenarioId) (seed : UInt64) (scheduler : String) (events : Nat) :
    List Probe :=
  match scenario with
  | .ordering => ordering
  | .fifoTies => fifoTies events
  | .cancel => cancel
  | .stopAt => stopAt
  | .destroy => destroy
  | .contextPropagation => contextPropagation
  | .injection => injection seed scheduler
  | .restart => restart
  | .randomLoad => randomLoad (Random.workload seed events)

/-- The outcome that was taken down among the replies. -/
def outcome (replies : List Reply) : Nat × Time :=
  (replies.findSome? fun
    | .captured executed now => some (executed, now)
    | _ => none).getD (0, .zero)

end EventSim.Scenario
