import EventSim.Error
import EventSim.Json.Reader
import EventSim.Json.Value
import EventSim.Text.Blank

/-! # Configuration

Two names choose what the facade builds: the type of the kernel and the type of the scheduler. A
configuration is read from a JSON text or changed by assignments `Name=value` parted by semicolons.
Assignments take effect one by one: those before a faulty segment stay.
-/

namespace EventSim

/-- The names that choose a kernel and a scheduler. -/
structure Config where
  kernelType : String
  schedulerType : String
  deriving DecidableEq

namespace Config

/-- The name of the value that chooses the kernel. -/
def kernelKey : String := "SimulatorImplementationType"

/-- The name of the value that chooses the scheduler. -/
def schedulerKey : String := "SchedulerType"

/-- The registered name of the built-in kernel. -/
def builtInKernel : String := "tempo::DefaultSimulatorImpl"

/-- The registered name of the ordered map. -/
def mapScheduler : String := "tempo::MapScheduler"

/-- The registered name of the binary heap. -/
def heapScheduler : String := "tempo::HeapScheduler"

/-- The registered name of the sorted list. -/
def listScheduler : String := "tempo::ListScheduler"

/-- The built-in kernel with the ordered map. -/
def default : Config := ⟨builtInKernel, mapScheduler⟩

instance : Inhabited Config := ⟨default⟩

/-- The configuration with the value called `name` set. -/
def set (c : Config) (name value : String) : Except ConfigFault Config :=
  if name = kernelKey then .ok { c with kernelType := value }
  else if name = schedulerKey then .ok { c with schedulerType := value }
  else .error (.unknownName name)

/-! ### Assignments -/

/-- The parts of a text between separators. -/
def splitOn (separator : Char) : List Char → List (List Char)
  | [] => [[]]
  | c :: rest =>
    if c = separator then [] :: splitOn separator rest
    else
      match splitOn separator rest with
      | [] => [[c]]
      | part :: parts => (c :: part) :: parts

/-- The segments of a text that are not blank, without the blanks around them. -/
def segments (text : List Char) : List (List Char) :=
  ((splitOn ';' text).map Text.trim).filter fun s => !s.isEmpty

/-- The configuration after the assignment that a segment holds. -/
def assignSegment (c : Config) (segment : List Char) : Except ConfigFault Config :=
  match segment.dropWhile (· ≠ '=') with
  | [] => .error (.notAssignment (String.ofList segment))
  | _ :: value =>
    c.set (String.ofList (Text.trim (segment.takeWhile (· ≠ '='))))
      (String.ofList (Text.trim value))

/-- The configuration after the segments up to the first faulty one, and what is wrong with that
one. -/
def assignSegments (c : Config) : List (List Char) → Config × Option ConfigFault
  | [] => (c, none)
  | segment :: rest =>
    match c.assignSegment segment with
    | .error fault => (c, some fault)
    | .ok c => c.assignSegments rest

/-- The configuration after the assignments of a text, and what is wrong with them if they were
not carried out to the end. -/
def assign (c : Config) (text : String) : Config × Option ConfigFault :=
  c.assignSegments (segments text.toList)

/-- The configuration after the assignments of a text that is accepted as a whole. -/
def assigned (c : Config) (text : String) : Except SimError Config :=
  match c.assign text with
  | (c, none) => .ok c
  | (_, some fault) => .error (.configuration fault)

/-- The default changed by the assignments of an environment variable, if it is set. -/
def ofEnvironment (value : Option String) : Except SimError Config :=
  match value with
  | none => .ok default
  | some text => default.assigned text

/-! ### JSON -/

/-- A configuration as a JSON value. -/
def toJson (c : Config) : Json.Value :=
  .object [(kernelKey, .string c.kernelType), (schedulerKey, .string c.schedulerType)]

/-- The names that have arrived. -/
abbrev Unfinished := Option String × Option String

/-- The configuration in which every name that has not arrived has its default. -/
def ofUnfinished (u : Unfinished) : Config :=
  ⟨u.1.getD default.kernelType, u.2.getD default.schedulerType⟩

/-- How a configuration is read: no other fields, every field optional. -/
def record : Json.Record Unfinished Config where
  expected := "struct GlobalConfig"
  names := [kernelKey, schedulerKey]
  tolerant := false
  empty := (none, none)
  has i u := if i = 0 then u.1.isSome else u.2.isSome
  readField i u s := do
    let (value, rest) ← Json.string s
    .ok (if i = 0 then (some value, u.2) else (u.1, some value), rest)
  finish u := .ok (ofUnfinished u)
  finishList _ u := .ok (ofUnfinished u)

/-- The configuration that a JSON text holds. -/
def ofJson (text : String) : Except SimError Config :=
  match Json.parse record.read text with
  | .ok c => .ok c
  | .error fault => .error (.configuration (.unreadable fault))

end Config

end EventSim
