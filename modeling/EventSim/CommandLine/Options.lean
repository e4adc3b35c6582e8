import EventSim.Time

/-! # Command line options

The arguments of the program are options only. An option has a long name and may have a letter; it
is a switch or takes a value. A value follows its option as the next argument, or in the same one:
`--name=value`, `-lvalue` or `-l=value`. Switches with letters can be run together, and the last
letter of such a group may take a value. An argument that starts with a dash is never the value of
the option before it. Every option can be given once.

`Options.read` reads the arguments from left to right and stops at the first that is wrong or asks
for help.
-/

namespace EventSim.CommandLine

/-- An option. -/
inductive Flag where
  | seed
  | scenario
  | scheduler
  | events
  | verbose
  | json
  | config
  | metrics
  | help
  deriving DecidableEq, Repr

namespace Flag

/-- All options. -/
def all : List Flag :=
  [.seed, .scenario, .scheduler, .events, .verbose, .json, .config, .metrics, .help]

/-- The long name of an option. -/
def name : Flag → String
  | .seed => "seed"
  | .scenario => "scenario"
  | .scheduler => "scheduler"
  | .events => "events"
  | .verbose => "verbose"
  | .json => "json"
  | .config => "config"
  | .metrics => "metrics"
  | .help => "help"

/-- The letter of an option, if it has one. -/
def letter? : Flag → Option Char
  | .seed => some 's'
  | .scenario => some 'S'
  | .events => some 'e'
  | .verbose => some 'v'
  | .help => some 'h'
  | .scheduler | .json | .config | .metrics => none

/-- The option takes a value. -/
def takesValue : Flag → Bool
  | .seed | .scenario | .scheduler | .events | .config | .metrics => true
  | .verbose | .json | .help => false

/-- The option of a long name. -/
def ofName? (s : List Char) : Option Flag := all.find? fun f => f.name.toList == s

/-- The option of a letter. -/
def ofLetter? (c : Char) : Option Flag := all.find? fun f => f.letter? == some c

end Flag

/-- Why the arguments make no options. -/
inductive Refusal where
  /-- They ask for help. -/
  | help
  /-- They are wrong. -/
  | usage
  deriving DecidableEq, Repr

/-- The values of the options, as far as they were given. -/
structure Options where
  seed : Option UInt64
  scenario : Option String
  scheduler : Option String
  events : Option Nat
  verbose : Bool
  json : Bool
  config : Option String
  metrics : Option String

namespace Options

/-- No option given. -/
def none : Options := ⟨.none, .none, .none, .none, false, false, .none, .none⟩

/-- The number that decimal digits stand for. -/
def digitsValue (s : List Char) : Nat := s.foldl (fun n c => 10 * n + (c.toNat - 48)) 0

/-- The number below 2^64 that a text stands for, with or without a plus sign. -/
def number? (s : List Char) : Option Nat :=
  let digits := match s with
    | '+' :: rest => rest
    | s => s
  if digits.isEmpty || !digits.all Char.isDigit then .none
  else if digitsValue digits < 18446744073709551616 then some (digitsValue digits)
  else .none

/-- A value that is given once. -/
def once {α : Type} (before value : Option α) : Except Refusal (Option α) :=
  match before, value with
  | .none, some v => .ok (some v)
  | _, _ => .error .usage

/-- The options with one more that takes a value. -/
def setValue (o : Options) (f : Flag) (value : List Char) : Except Refusal Options :=
  match f with
  | .seed => (once o.seed ((number? value).map UInt64.ofNat)).map fun v => { o with seed := v }
  | .scenario =>
    (once o.scenario (some (String.ofList value))).map fun v => { o with scenario := v }
  | .scheduler =>
    (once o.scheduler (some (String.ofList value))).map fun v => { o with scheduler := v }
  | .events => (once o.events (number? value)).map fun v => { o with events := v }
  | .config =>
    if value.isEmpty then .error .usage
    else (once o.config (some (String.ofList value))).map fun v => { o with config := v }
  | .metrics =>
    (once o.metrics (some (String.ofList value))).map fun v => { o with metrics := v }
  | .verbose | .json | .help => .error .usage

/-- The options with one more switch. -/
def setSwitch (o : Options) (f : Flag) : Except Refusal Options :=
  match f with
  | .verbose => if o.verbose then .error .usage else .ok { o with verbose := true }
  | .json => if o.json then .error .usage else .ok { o with json := true }
  | .help => .error .help
  | _ => .error .usage

/-- The options after an argument, and the option that still waits for its value. -/
abbrev Pending := Options × Option Flag

/-- A long option, the text being what follows the two dashes. -/
def readLong (o : Options) (text : List Char) : Except Refusal Pending :=
  match Flag.ofName? (text.takeWhile (· ≠ '=')), text.dropWhile (· ≠ '=') with
  | .none, _ => .error .usage
  | some f, [] =>
    if f.takesValue then .ok (o, some f) else (o.setSwitch f).map fun o => (o, .none)
  | some f, _ :: value => (o.setValue f value).map fun o => (o, .none)

/-- A group of letters. -/
def readLetters (o : Options) : List Char → Except Refusal Pending
  | [] => .ok (o, .none)
  | c :: rest =>
    match Flag.ofLetter? c with
    | .none => .error .usage
    | some f =>
      if f.takesValue then
        match rest with
        | [] => .ok (o, some f)
        | '=' :: value => (o.setValue f value).map fun o => (o, .none)
        | value => (o.setValue f value).map fun o => (o, .none)
      else
        match o.setSwitch f with
        | .error e => .error e
        | .ok o => o.readLetters rest

/-- The argument starts like an option. -/
def isOption : List Char → Bool
  | '-' :: _ :: _ => true
  | _ => false

/-- The options after the arguments, when `waiting` still lacks its value. -/
def readFrom (o : Options) (waiting : Option Flag) : List (List Char) → Except Refusal Options
  | [] => if waiting.isSome then .error .usage else .ok o
  | argument :: rest =>
    match waiting with
    | some f =>
      if isOption argument then .error .usage
      else
        match o.setValue f argument with
        | .error e => .error e
        | .ok o => o.readFrom .none rest
    | .none =>
      match argument with
      | ['-', '-'] => if rest.isEmpty then .ok o else .error .usage
      | '-' :: '-' :: text =>
        match o.readLong text with
        | .error e => .error e
        | .ok (o, waiting) => o.readFrom waiting rest
      | '-' :: c :: text =>
        match o.readLetters (c :: text) with
        | .error e => .error e
        | .ok (o, waiting) => o.readFrom waiting rest
      | _ => .error .usage

/-- The options that arguments give. -/
def read (arguments : List String) : Except Refusal Options :=
  none.readFrom .none (arguments.map String.toList)

end Options

end EventSim.CommandLine
