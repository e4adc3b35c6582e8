import EventSim.Proofs.Json.Decoding
import EventSim.Trace

/-!
# Reports read back

Every time, every context and every count of 64 bits is read back from its text, and so are the
records and the report that hold them: **what is written of a trace, to a file or without blanks,
reads as the report that was written** (`Trace.ofJson_texts`).
-/

namespace EventSim

open Json

/-! ### Numbers of a range of their own -/

theorem Time.clamp_ticks (t : Time) : Time.clamp t.ticks = t := by
  have hmin := t.min_le
  have hmax := t.le_max
  apply Time.ext
  unfold Time.clamp
  dsimp only
  omega

theorem Time.decodes_read (t : Time) : Decodes Time.read (.integer t.ticks) t := by
  have hmin := t.min_le
  have hmax := t.le_max
  unfold minTicks maxTicks at *
  refine (decodes_integer minTicks maxTicks "i64" ⟨hmin, by omega⟩ ⟨hmin, hmax⟩).made
    fun s rest h => ?_
  unfold Time.read
  rw [h]
  exact congrArg (fun a => Except.ok (a, rest)) t.clamp_ticks

theorem decodes_readContext (c : Context) : Decodes readContext (.integer c.toNat) c := by
  have hmax := c.toNat_lt
  refine (decodes_integer 0 4294967295 "u32" ⟨by omega, by omega⟩ ⟨by omega, by omega⟩).made
    fun s rest h => ?_
  unfold readContext
  rw [h]
  exact congrArg (fun a => Except.ok (a, rest)) UInt32.ofNat_toNat

theorem decodes_readCount {n : Nat} (hn : n < 18446744073709551616) :
    Decodes readCount (.integer n) n :=
  (decodes_integer 0 18446744073709551615 "usize" ⟨by omega, by omega⟩ ⟨by omega, by omega⟩).made
    fun s rest h => by
      unfold readCount
      rw [h]
      rfl

/-! ### Records and reports -/

theorem TraceRecord.decodes_read (r : TraceRecord) :
    Decodes TraceRecord.record.read r.toJson r := by
  have hsource : Decodes (record.readField 0 {}) (.integer r.source.toNat)
      ⟨r.source, none, none, none⟩ :=
    (decodes_readContext r.source).made fun _ _ h => congrArg (· >>= _) h
  have hsend : Decodes (record.readField 1 ⟨r.source, none, none, none⟩)
      (.integer r.sendTime.ticks) ⟨r.source, r.sendTime, none, none⟩ :=
    r.sendTime.decodes_read.made fun _ _ h => congrArg (· >>= _) h
  have htarget : Decodes (record.readField 2 ⟨r.source, r.sendTime, none, none⟩)
      (.integer r.target.toNat) ⟨r.source, r.sendTime, r.target, none⟩ :=
    (decodes_readContext r.target).made fun _ _ h => congrArg (· >>= _) h
  have hrecv : Decodes (record.readField 3 ⟨r.source, r.sendTime, r.target, none⟩)
      (.integer r.recvTime.ticks) ⟨r.source, r.sendTime, r.target, r.recvTime⟩ :=
    r.recvTime.decodes_read.made fun _ _ h => congrArg (· >>= _) h
  have hfills : record.Fills record.empty
      [("source", .integer r.source.toNat), ("send_time", .integer r.sendTime.ticks),
        ("target", .integer r.target.toNat), ("recv_time", .integer r.recvTime.ticks)]
      ⟨r.source, r.sendTime, r.target, r.recvTime⟩ :=
    .cons rfl rfl hsource (.cons rfl rfl hsend (.cons rfl rfl htarget
      (.cons rfl rfl hrecv (.nil _))))
  exact Record.decodes_read hfills rfl

/-- A report whose count fits in 64 bits is read back, whether or not it counts its records. -/
theorem Report.decodes_read (r : Report) (h : r.traceCount < 18446744073709551616) :
    Decodes Report.record.read r.toJson r := by
  have hname : Decodes (record.readField 0 {}) (.string r.name) ⟨r.name, none, none⟩ :=
    (decodes_string r.name).made fun _ _ h => congrArg (· >>= _) h
  have hcount : Decodes (record.readField 1 ⟨r.name, none, none⟩) (.integer r.traceCount)
      ⟨r.name, r.traceCount, none⟩ :=
    (decodes_readCount h).made fun _ _ h => congrArg (· >>= _) h
  have hitems : List.Forall₂ (Decodes TraceRecord.record.read)
      (r.records.map TraceRecord.toJson) r.records :=
    List.forall₂_map_left_iff.2 (List.forall₂_same.2 fun x _ => x.decodes_read)
  have hrecords : Decodes (record.readField 2 ⟨r.name, r.traceCount, none⟩)
      (.list (r.records.map TraceRecord.toJson)) ⟨r.name, r.traceCount, r.records⟩ :=
    (decodes_list hitems).made fun _ _ h => congrArg (· >>= _) h
  have hfills : record.Fills record.empty
      [("name", .string r.name), ("trace_count", .integer r.traceCount),
        ("records", .list (r.records.map TraceRecord.toJson))]
      ⟨r.name, r.traceCount, r.records⟩ :=
    .cons rfl rfl hname (.cons rfl rfl hcount (.cons rfl rfl hrecords (.nil _)))
  exact Record.decodes_read hfills rfl

/-- **What is written of a trace reads as what the trace holds.**  The text of its report without
blanks and the text that is put into a file both read as a report with the name of the trace, the
number of its records and these records in the order of the calls: for every name and all records,
as many of them as a count of 64 bits can tell. -/
theorem Trace.ofJson_texts (t : Trace) (h : t.newestFirst.length < 18446744073709551616) :
    Report.ofJson t.report.fileText = .ok ⟨t.name, t.newestFirst.length, t.newestFirst.reverse⟩ ∧
      Report.ofJson t.report.compactText =
        .ok ⟨t.name, t.newestFirst.length, t.newestFirst.reverse⟩ :=
  ⟨(t.report.decodes_read h).parse (.lines 0), (t.report.decodes_read h).parse .compact⟩

/-- A name with a quote, a backslash, a line feed, a control character and characters outside of
ASCII, and one record at both bounds. -/
theorem Trace.ofJson_texts_bounds :
    Report.ofJson (Report.fileText ⟨"a\"\\\n\x01é☃", 1, [⟨0, .least, 4294967295, .greatest⟩]⟩) =
      .ok ⟨"a\"\\\n\x01é☃", 1, [⟨0, .least, 4294967295, .greatest⟩]⟩ :=
  (Trace.ofJson_texts ⟨"a\"\\\n\x01é☃", [⟨0, .least, 4294967295, .greatest⟩]⟩ (by decide)).1

end EventSim
