import EventSim.Handle
import EventSim.Json.Fault

/-! # Refusals and panics

A call can be refused with a `SimError`, which the caller receives as an answer, or it can end in
a `Panic`, which unwinds through everything that is executing up to the outermost call. Both are
given by their causes; `message` words them.
-/

namespace EventSim

/-- What is wrong with a configuration text. -/
inductive ConfigFault where
  /-- A segment without an equals sign. -/
  | notAssignment (segment : String)
  /-- An assignment to a name that is no configuration value. -/
  | unknownName (name : String)
  /-- A JSON text that does not hold a configuration. -/
  | unreadable (fault : Json.Fault)
  /-- A fault in the words of the caller. -/
  | stated (text : String)
  deriving DecidableEq

/-- The wording of a configuration fault. -/
def ConfigFault.message : ConfigFault → String
  | .notAssignment segment => "expected Name=value, got `" ++ segment ++ "`"
  | .unknownName name => "unknown global value `" ++ name ++ "`"
  | .unreadable fault => fault.message
  | .stated text => text

/-- Why a call was refused. -/
inductive SimError where
  /-- A kernel was handed over while the facade holds one. -/
  | kernelPresent
  /-- No kernel is registered under the name. -/
  | unknownKernel (name : String)
  /-- No scheduler is registered under the name. -/
  | unknownScheduler (name : String)
  /-- The event would fire before the present. -/
  | negativeDelay (delay : Time)
  /-- The event would fire after the greatest time. -/
  | timeOverflow (now delay : Time)
  /-- The event ran, was given up, or belongs to another kernel. -/
  | expiredHandle (uid : Nat)
  /-- The configuration cannot be read. -/
  | configuration (fault : ConfigFault)
  deriving DecidableEq

/-- The wording of a refusal. -/
def SimError.message : SimError → String
  | .kernelPresent =>
    "cannot set the simulator implementation after it has been resolved; " ++
      "call set_implementation before any other Simulator call or after teardown"
  | .unknownKernel name => "unknown simulator implementation type: " ++ name
  | .unknownScheduler name => "unknown scheduler type: " ++ name
  | .negativeDelay delay => "cannot schedule an event with negative delay " ++ delay.text
  | .timeOverflow now delay =>
    "scheduling " ++ delay.text ++ " after " ++ now.text ++ " overflows virtual time"
  | .expiredHandle uid => "event handle E#" ++ toString uid ++ " is expired"
  | .configuration fault => "configuration error: " ++ fault.message

/-- Why execution was abandoned. -/
inductive Panic where
  /-- Arithmetic on times left the range. -/
  | overflow (operation : Overflow)
  /-- A scheduler handed out an event that was due before the present. -/
  | clockWentBack
  /-- The facade could not build the kernel that the configuration names. -/
  | construction (error : SimError)
  /-- The environment variable does not hold assignments. -/
  | badEnvironment (error : SimError)
  /-- A kernel was addressed that was never made. -/
  | noSuchKernel (index count : Nat)
  /-- An action gave up. -/
  | raised (message : String)
  deriving DecidableEq

/-- The name of the operation that overflowed. -/
def Overflow.word : Overflow → String
  | .add => "add"
  | .subtract => "subtract"
  | .negate => "negate"

/-- The wording of a panic. -/
def Panic.message : Panic → String
  | .overflow operation => "attempt to " ++ operation.word ++ " with overflow"
  | .clockWentBack => "virtual time went backwards"
  | .construction error => "simulator construction failed: " ++ error.message
  | .badEnvironment error => "invalid TEMPO_GLOBAL_VALUE: " ++ error.message
  | .noSuchKernel index count =>
    "index out of bounds: the len is " ++ toString count ++ " but the index is " ++ toString index
  | .raised message => message

end EventSim
