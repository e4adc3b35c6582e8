import EventSim.CommandLine.Batch
import Mathlib.Tactic.DeprecateTo

/-! # The program

The outer layer of the command line: it reads the clock and the configuration file, writes the
trace, prints and ends the process. What is read, written and printed is decided in
`EventSim.CommandLine`. The clock is that of `Std.Time`, which the import of
`Mathlib.Tactic.DeprecateTo` brings along.
-/

namespace EventSim.CommandLine

/-- The nanoseconds since the epoch, modulo 2^64, or 42 before the epoch. -/
def readClock : IO UInt64 := do
  let present ← Std.Time.Timestamp.now
  let nanoseconds := present.toNanosecondsSinceUnixEpoch.val
  return if nanoseconds < 0 then 42 else UInt64.ofNat nanoseconds.toNat

/-- What is wrong with a file that could not be opened. -/
def faultOf : IO.Error → FileFault
  | .noFileOrDirectory .. => .missing
  | .inappropriateType _ 21 _ => .isFolder
  | .inappropriateType .. => .notFolder
  | .invalidArgument _ 36 _ => .nameTooLong
  | e => .other 0 (toString e)

/-- The content of a file. -/
def contentOf (path : String) : IO FileContent := do
  try
    let bytes ← IO.FS.readBinFile path
    match String.fromUTF8? bytes with
    | some s => return .text s
    | none => return .undecodable
  catch e => return .closed (faultOf e)

/-- What was wrong with the file that a text was to be written to. -/
def writeText (path text : String) : IO (Option FileFault) := do
  try
    IO.FS.writeFile path text
    return none
  catch e => return some (faultOf e)

/-- Prints what the program leaves behind. -/
def finish (out : Output) : IO UInt32 := do
  for line in out.log do
    let indent := if line.level = .info then "  " else " "
    IO.eprintln (indent ++ line.written)
  for line in out.complaints do
    IO.eprintln line
  match out.exit with
  | .panic p => IO.eprintln ("panicked: " ++ p.message)
  | .usage => IO.eprintln "error: the arguments are not understood; try '--help'"
  | .success | .failure => IO.print out.stdout
  return UInt32.ofNat out.exit.code

/-- Carries out the options. -/
def runOptions (o : Options) : IO UInt32 := do
  let environment ← IO.getEnv "TEMPO_GLOBAL_VALUE"
  let clock ← readClock
  let content ← match o.config with
    | none => pure (.text "")
    | some path => contentOf path
  match Batch.prepare o environment clock content with
  | .error out => finish out
  | .ok b =>
    match b.carryOut with
    | .error out => finish out
    | .ok b =>
      match o.metrics with
      | none => finish (b.conclude none)
      | some path =>
        let fault ← writeText path b.world.trace.report.fileText
        finish (b.conclude fault)

/-- The program. -/
def program (arguments : List String) : IO UInt32 :=
  match Options.read arguments with
  | .error r => finish r.output
  | .ok o => runOptions o

end EventSim.CommandLine

/-- The program as it is started. -/
def main (arguments : List String) : IO UInt32 := EventSim.CommandLine.program arguments
