import EventSim.Json.Reader
import EventSim.Json.Value
import EventSim.Key

/-! # The trace of scheduling calls

Every scheduling call through the facade leaves one record, accepted or not: the context and the
time of the call, and the context and the time of the event it asked for. A `Report` is what the
trace holds at a moment; it is written as JSON and read back.
-/

namespace EventSim

/-- One scheduling call. -/
structure TraceRecord where
  source : Context
  sendTime : Time
  target : Context
  recvTime : Time
  deriving DecidableEq

/-- The calls so far, the newest first, under the name of the trace. -/
structure Trace where
  name : String
  newestFirst : List TraceRecord
  deriving DecidableEq

/-- The trace at a moment, with the number of its records. -/
structure Report where
  name : String
  traceCount : Nat
  records : List TraceRecord
  deriving DecidableEq

namespace Trace

/-- The trace before any call, without a name. -/
def empty : Trace := ⟨"", []⟩

/-- A trace of that name without records. -/
def start (name : String) : Trace := ⟨name, []⟩

/-- The trace without its records. -/
def clear (t : Trace) : Trace := { t with newestFirst := [] }

/-- The records in the order of the calls. -/
def records (t : Trace) : List TraceRecord := t.newestFirst.reverse

/-- The trace with the record of a call from `source` at `now` for `target` after `delay`; a due
time out of range is held at the bound. -/
def add (t : Trace) (source target : Context) (now delay : Time) : Trace :=
  { t with newestFirst := ⟨source, now, target, now.saturatingAdd delay⟩ :: t.newestFirst }

/-- What the trace holds. -/
def report (t : Trace) : Report := ⟨t.name, t.newestFirst.length, t.records⟩

end Trace

/-! ### Writing -/

/-- A record as a JSON value. -/
def TraceRecord.toJson (r : TraceRecord) : Json.Value :=
  .object [("source", .integer r.source.toNat), ("send_time", .integer r.sendTime.ticks),
    ("target", .integer r.target.toNat), ("recv_time", .integer r.recvTime.ticks)]

/-- A report as a JSON value. -/
def Report.toJson (r : Report) : Json.Value :=
  .object [("name", .string r.name), ("trace_count", .integer r.traceCount),
    ("records", .list (r.records.map TraceRecord.toJson))]

/-- The text of a report without blanks. -/
def Report.compactText (r : Report) : String := String.ofList r.toJson.compact

/-- The text of a report as it is put into a file. -/
def Report.fileText (r : Report) : String := String.ofList r.toJson.pretty

/-! ### Reading -/

/-- A time, as its ticks. -/
def Time.read : Json.Reader Time := fun s => do
  let (n, rest) ← Json.integer minTicks maxTicks "i64" s
  .ok (.clamp n, rest)

/-- The time that a JSON text holds. -/
def Time.ofJson (text : String) : Except Json.Fault Time := Json.parse Time.read text

/-- A context, as its number. -/
def readContext : Json.Reader Context := fun s => do
  let (n, rest) ← Json.integer 0 4294967295 "u32" s
  .ok (UInt32.ofNat n.toNat, rest)

/-- A count. -/
def readCount : Json.Reader Nat := fun s => do
  let (n, rest) ← Json.integer 0 18446744073709551615 "usize" s
  .ok (n.toNat, rest)

/-- A field that must have arrived. -/
def required {α : Type} (name : String) : Option α → Except Json.Fault α
  | some a => .ok a
  | none => .error (.missingField name)

namespace TraceRecord

/-- The fields that have arrived. -/
structure Unfinished where
  source : Option Context := none
  sendTime : Option Time := none
  target : Option Context := none
  recvTime : Option Time := none

/-- The record whose fields have all arrived. -/
def ofUnfinished (u : Unfinished) : Except Json.Fault TraceRecord := do
  let source ← required "source" u.source
  let sendTime ← required "send_time" u.sendTime
  let target ← required "target" u.target
  let recvTime ← required "recv_time" u.recvTime
  .ok ⟨source, sendTime, target, recvTime⟩

/-- How a record is read: fields of other names are passed over. -/
def record : Json.Record Unfinished TraceRecord where
  expected := "struct TraceRecord"
  names := ["source", "send_time", "target", "recv_time"]
  tolerant := true
  empty := {}
  has i u :=
    match i with
    | 0 => u.source.isSome
    | 1 => u.sendTime.isSome
    | 2 => u.target.isSome
    | _ => u.recvTime.isSome
  readField i u s :=
    match i with
    | 0 => do
      let (v, rest) ← readContext s
      .ok ({ u with source := some v }, rest)
    | 1 => do
      let (v, rest) ← Time.read s
      .ok ({ u with sendTime := some v }, rest)
    | 2 => do
      let (v, rest) ← readContext s
      .ok ({ u with target := some v }, rest)
    | _ => do
      let (v, rest) ← Time.read s
      .ok ({ u with recvTime := some v }, rest)
  finish u := ofUnfinished u
  finishList n u :=
    if n < 4 then .error (.wrongLength n "struct TraceRecord with 4 elements") else ofUnfinished u

/-- The record that a JSON text holds. -/
def ofJson (text : String) : Except Json.Fault TraceRecord := Json.parse record.read text

end TraceRecord

namespace Report

/-- The fields that have arrived. -/
structure Unfinished where
  name : Option String := none
  traceCount : Option Nat := none
  records : Option (List TraceRecord) := none

/-- The report whose fields have all arrived. -/
def ofUnfinished (u : Unfinished) : Except Json.Fault Report := do
  let name ← required "name" u.name
  let traceCount ← required "trace_count" u.traceCount
  let records ← required "records" u.records
  .ok ⟨name, traceCount, records⟩

/-- How a report is read: fields of other names are passed over. -/
def record : Json.Record Unfinished Report where
  expected := "struct MetricsReport"
  names := ["name", "trace_count", "records"]
  tolerant := true
  empty := {}
  has i u :=
    match i with
    | 0 => u.name.isSome
    | 1 => u.traceCount.isSome
    | _ => u.records.isSome
  readField i u s :=
    match i with
    | 0 => do
      let (v, rest) ← Json.string s
      .ok ({ u with name := some v }, rest)
    | 1 => do
      let (v, rest) ← readCount s
      .ok ({ u with traceCount := some v }, rest)
    | _ => do
      let (v, rest) ← Json.list TraceRecord.record.read s
      .ok ({ u with records := some v }, rest)
  finish u := ofUnfinished u
  finishList n u :=
    if n < 3 then .error (.wrongLength n "struct MetricsReport with 3 elements")
    else ofUnfinished u

/-- The report that a JSON text holds. -/
def ofJson (text : String) : Except Json.Fault Report := Json.parse record.read text

end Report

end EventSim
