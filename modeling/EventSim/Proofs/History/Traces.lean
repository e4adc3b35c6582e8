import EventSim.Proofs.History.Causality
import EventSim.Proofs.Machine.Traces

/-!
# The trace over a history

`Permitted.traced_history`: **the trace is the exact history of scheduling through the facade**.
Since it was last started or cleared it has got one record for each scheduling call that has
returned, accepted or refused, in the order of the calls, wherever they were made from, and no other
record.  A record tells the context and the time at its call; if the call was accepted, it tells the
time and the context of the event, and if that ever starts, it starts under them.
-/

namespace EventSim

namespace History

open Machine

variable {p : Command → Prop} {environment : Option String} {l older : List Move} {id : KernelId}
  {x : Move}

/-- The traced scheduling calls since the trace was last started or cleared, the first call
first. -/
def traced (environment : Option String) : List Move → List Request
  | [] => []
  | x :: l =>
    if (after environment l).retraces x then []
    else traced environment l ++ ((after environment l).requests x).filter Request.traced

/-- The trace holds the records of the traced calls, in their order. -/
theorem Permitted.recorded (h : Permitted p environment l) :
    List.Forall₂ Request.Recorded (traced environment l)
      (after environment l).world.trace.records := by
  induction l with
  | nil => exact .nil
  | cons x l ih =>
    rw [traced, after]
    split
    · rename_i hx
      rw [records_retraced hx]
      exact .nil
    · rename_i hx
      obtain ⟨rs, hrs, ht⟩ := traces_make h.2.reached.housed (Bool.eq_false_iff.2 hx)
      rw [ht, Trace.records_extend]
      exact List.rel_append (ih h.2) hrs

/-- When an event starts, the present of its kernel and of the facade in front of it is the time and
the context of its handle. -/
theorem Permitted.present_of_started {e : Event (Payload Action)}
    (h : Permitted Command.Lawful environment (x :: older))
    (hm : (id, .started e) ∈ (after environment older).notes x) :
    let w := (after environment (x :: older)).world
    (∃ k, w.kernel? id = some k ∧ k.now = e.key.time ∧ k.context = e.key.context) ∧
      (w.slot = some id → w.nowOf .facade = .ok (e.key.time, w) ∧
        w.contextOf .facade = .ok (e.key.context, w)) := by
  intro w
  obtain ⟨k, hk⟩ := h.kernel_of_turn hm trivial
  obtain ⟨⟨k', hk', hnow, hcontext⟩, -⟩ := (h.causality hk).2 [] x older e rfl hm
  refine ⟨⟨k', hk', hnow, hcontext⟩, fun hs => ?_⟩
  obtain ⟨watched, he⟩ := World.kernel?_eq_some.1 hk'
  have hr : w.reach .facade = .ok (id, w) := by rw [World.reach, World.resolve, hs]
  have he : w.engine? id = some (.builtIn watched k') := he
  simp only [World.nowOf, World.contextOf, hr, he, Option.map_some, Option.getD_some, Engine.now,
    Engine.context, hnow, hcontext, and_self]

/-- The record tells of the call, and of the event if it was accepted and ever starts. -/
def Accounts (environment : Option String) (q : Request) (r : TraceRecord) : Prop :=
  q.Recorded r ∧ ∀ x older id e, Permitted Command.Lawful environment (x :: older) →
    (id, .started e) ∈ (after environment older).notes x →
    q.reply = .ok (.handle (.ofKey (some id) e.key)) →
    let w := (after environment (x :: older)).world
    (∃ k, w.kernel? id = some k ∧ k.now = r.recvTime ∧ k.context = r.target) ∧
      (w.slot = some id → w.nowOf .facade = .ok (r.recvTime, w) ∧
        w.contextOf .facade = .ok (r.target, w))

/-- **The trace is the exact history of scheduling through the facade**, and a report tells it and
the number of its records. -/
theorem Permitted.traced_history (h : Permitted p environment l) :
    let w := (after environment l).world
    List.Forall₂ (Accounts environment) (traced environment l) w.trace.records ∧
      w.perform (.trace .report) =
        (.ok (.report ⟨w.trace.name, w.trace.records.length, w.trace.records⟩), w) := by
  intro w
  constructor
  · refine h.recorded.imp fun q r hr => ⟨hr, fun x older id e hx hm hh => ?_⟩
    obtain ⟨htarget, htime⟩ := hr.accepted _ hh rfl
    rw [htarget, htime]
    exact hx.present_of_started hm
  · rw [World.perform, Trace.report, Trace.records, List.length_reverse]

/-- An event under the context 7 schedules another one; a negative delay is refused. -/
def tracedRun : List Move :=
  let event (timing : Timing) (body : List Command) : Command :=
    .schedule .facade timing (.numbered 1) (.silent body)
  .replicate 4 .step ++ [.call (.run .facade), .call (event (.after (.clamp (-1))) []),
    .call (event (.under 7 (.clamp 2)) [event (.after (.clamp 3)) []]),
    .call (event .atTeardown []), .call (.trace (.start "run"))]

theorem permitted_tracedRun : Permitted Command.Lawful none tracedRun := by
  simp only [tracedRun, List.replicate, List.cons_append, List.nil_append, Permitted, Allows]
  refine ⟨trivial, trivial, trivial, trivial, ⟨rfl, ?_⟩, ⟨rfl, ?_⟩, ⟨rfl, ?_⟩, ⟨rfl, ?_⟩, ⟨rfl, ?_⟩,
    trivial⟩
  all_goals simp [Command.All, Action.silent, Action.All, allOf, Command.Lawful]

/-- Three calls were traced, the refused one and the one out of the action among them. -/
theorem traced_history_tracedRun :
    let w := (after none tracedRun).world
    w.trace.records =
        [⟨noContext, .zero, 7, .clamp 2⟩, ⟨noContext, .zero, noContext, .clamp (-1)⟩,
          ⟨7, .clamp 2, 7, .clamp 5⟩] ∧
      List.Forall₂ (Accounts none) (traced none tracedRun) w.trace.records := by
  exact ⟨by decide +kernel, permitted_tracedRun.traced_history.1⟩

end History

end EventSim
