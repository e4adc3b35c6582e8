import EventSim.Proofs.Machine.Housing
import EventSim.Proofs.Machine.Settings

/-!
# What is traced

A scheduling call through the facade leaves a record in the trace before the kernel is asked.
`Request.Recorded` says what the record tells of the call.  Where and when the event is to run is
worked out twice, for the record and by the kernel; they agree on every call that the kernel accepts
(`Kernel.recorded_of_schedule`).

`World.Traces` says that between two worlds the trace has got the records of some calls and no
others.  **Whatever starts in a move, the trace gets the records of its scheduling calls**
(`Machine.traces_make`), unless the trace is started anew or cleared.
-/

namespace EventSim

/-- The delay after which an event is to run. -/
def Timing.delay : Timing → Time
  | .after delay | .under _ delay => delay
  | .immediately | .atTeardown => .zero

/-- The trace with the records of further calls, the first call first. -/
def Trace.extend (t : Trace) (l : List TraceRecord) : Trace :=
  { t with newestFirst := l.reverse ++ t.newestFirst }

theorem Trace.extend_append (t : Trace) (l l' : List TraceRecord) :
    t.extend (l ++ l') = (t.extend l).extend l' := by
  simp only [extend, List.reverse_append, List.append_assoc]

theorem Trace.records_extend (t : Trace) (l : List TraceRecord) :
    (t.extend l).records = t.records ++ l := by
  simp only [records, extend, List.reverse_append, List.reverse_reverse]

namespace Request

/-- A timed event is scheduled through the facade, and the call has returned. -/
def traced (q : Request) : Bool :=
  decide (q.target = .facade ∧ q.timing ≠ .atTeardown) && q.payload.action?.isSome && q.reply.isOk

/-- What the trace tells of a call: the context and the time at the call, and those of the event.
The event of a refused call is recorded for the time nearest to the one that was asked for. -/
structure Recorded (q : Request) (r : TraceRecord) : Prop where
  source : ∃ w, q.before.contextOf q.target = .ok (r.source, w)
  sendTime : ∃ w, q.before.nowOf q.target = .ok (r.sendTime, w)
  target : r.target = q.timing.context r.source
  accepted : ∀ h, q.reply = .ok (.handle h) → h.owner.isSome →
    r.target = h.context ∧ r.recvTime = h.time
  refused : ∀ e, q.reply = .ok (.refused e) →
    r.recvTime = .clamp (r.sendTime.ticks + q.timing.delay.ticks)

end Request

/-- The kernel works out the same time and context as the trace. -/
theorem Kernel.recorded_of_schedule {α : Type} {k k' : Kernel α} {timing : Timing} {a : α}
    {h : Handle} (hs : k.schedule timing a = .ok (h, k')) (ht : timing ≠ .atTeardown) :
    h.context = timing.context k.context ∧ h.time = k.now.saturatingAdd timing.delay := by
  refine ⟨context_of_schedule hs, ?_⟩
  have hinsert {context : Context} {delay : Time} {payload : Payload α}
      (hi : k.insert context delay payload = .ok (h, k')) :
      h.time = k.now.saturatingAdd delay := by
    unfold insert at hi
    split at hi
    · cases hi
    · split at hi
      · cases hi
      · rename_i time hadd
        cases hi
        have hticks := Time.ofInt?_eq_some.1 hadd
        refine Time.ext (hticks.trans (Time.clamp_of_inRange ?_ ?_).symm)
        · exact hticks ▸ time.min_le
        · exact hticks ▸ time.le_max
  cases timing with
  | after delay => exact hinsert hs
  | under context delay => exact hinsert hs
  | immediately =>
    cases hs
    have hadd : k.now.ticks + Time.zero.ticks = k.now.ticks := Int.add_zero _
    refine Time.ext ?_
    rw [Time.saturatingAdd, Timing.delay, hadd]
    exact (Time.clamp_of_inRange k.now.min_le k.now.le_max).symm
  | atTeardown => exact (ht rfl).elim

namespace World

variable {w w' w'' : World} {l l' : List Request}

/-- The trace has got the records of the traced ones among some calls. -/
def Traces (l : List Request) (w w' : World) : Prop :=
  ∃ rs, List.Forall₂ Request.Recorded (l.filter Request.traced) rs ∧
    w'.trace = w.trace.extend rs

theorem Traces.of_eq (h : w'.trace = w.trace) : w.Traces [] w' := ⟨[], .nil, h⟩

theorem Traces.trans (h : w.Traces l w') (g : w'.Traces l' w'') : w.Traces (l ++ l') w'' := by
  obtain ⟨rs, hrs, ht⟩ := h
  obtain ⟨rs', hrs', ht'⟩ := g
  refine ⟨rs ++ rs', ?_, ?_⟩
  · rw [List.filter_append]
    exact List.rel_append hrs hrs'
  · rw [ht', ht, Trace.extend_append]

/-- The record of a scheduling call. -/
def recordOf (e : Engine Action) (timing : Timing) : TraceRecord :=
  ⟨e.context, e.now, timing.context e.context, e.now.saturatingAdd timing.delay⟩

theorem trace_traced (w : World) (e : Engine Action) {timing : Timing} (h : timing ≠ .atTeardown) :
    (w.traced e timing).trace = w.trace.extend [recordOf e timing] := by
  cases timing <;> first | rfl | exact (h rfl).elim

/-- What a scheduling call makes of the trace once the kernel is at hand. -/
theorem trace_schedule {t : Target} {id : KernelId} {v : World} {e : Engine Action}
    (hr : w.reach t = .ok (id, v)) (he : v.engine? id = some e) (timing : Timing)
    (name : HandleName) (a : Action) :
    (w.schedule t timing name a).2.trace =
      if t = .facade ∧ timing ≠ .atTeardown then w.trace.extend [recordOf e timing]
      else w.trace := by
  have hv := trace_of_settings (settings_reach hr)
  have hu : (if t = .facade then v.traced e timing else v).trace =
      if t = .facade ∧ timing ≠ .atTeardown then w.trace.extend [recordOf e timing]
      else w.trace := by
    by_cases ht : t = .facade
    · by_cases htiming : timing = .atTeardown
      · rw [if_pos ht, if_neg fun h => h.2 htiming, htiming]
        exact hv
      · rw [if_pos ht, if_pos ⟨ht, htiming⟩, trace_traced v e htiming, hv]
    · rw [if_neg ht, if_neg fun h => ht h.1, hv]
  rw [← hu]
  generalize hw : (if t = .facade then v.traced e timing else v) = u
  have hreleased (e' : Engine Action) (dropped : List Action) :
      ((u.setEngine id e').releaseAll dropped).trace = u.trace :=
    trace_of_settings (settings_releaseAll _ dropped)
  simp only [schedule, hr, he, hw]
  split
  · exact hreleased _ _
  · exact hreleased _ _

/-- Whatever kernel is at hand answers the call. -/
theorem traced_requestAction {t : Target} {id : KernelId} {v : World} {e : Engine Action}
    (hr : w.reach t = .ok (id, v)) (he : v.engine? id = some e) (timing : Timing)
    (name : HandleName) (a : Action) :
    (w.requestAction t timing name a).traced = decide (t = .facade ∧ timing ≠ .atTeardown) := by
  simp only [Request.traced, requestAction, schedule, hr, he, Payload.action?, Option.isSome_some,
    Bool.and_true]
  cases (e.schedule timing a).1 <;> exact Bool.and_true _

/-- The record of a call tells what a kernel of whatever kind makes of it. -/
theorem recorded_requestAction {t : Target} {id : KernelId} {v : World} {e : Engine Action}
    (hr : w.reach t = .ok (id, v)) (he : v.engine? id = some e) {timing : Timing}
    (ht : timing ≠ .atTeardown) (name : HandleName) (a : Action) :
    (w.requestAction t timing name a).Recorded (recordOf e timing) where
  source := ⟨v, by
    show w.contextOf t = _
    simp only [contextOf, hr, he, Option.map_some, Option.getD_some, recordOf]⟩
  sendTime := ⟨v, by
    show w.nowOf t = _
    simp only [nowOf, hr, he, Option.map_some, Option.getD_some, recordOf]⟩
  target := rfl
  accepted h hh ho := by
    simp only [requestAction, schedule, hr, he] at hh
    cases e with
    | builtIn watched k =>
      cases hs : k.schedule timing a with
      | ok r =>
        obtain ⟨g, k'⟩ := r
        simp only [Engine.schedule, hs] at hh
        cases hh
        obtain ⟨hcontext, htime⟩ := Kernel.recorded_of_schedule hs ht
        exact ⟨hcontext.symm, htime.symm⟩
      | error error =>
        simp only [Engine.schedule, hs] at hh
        cases hh
    | fixed k =>
      simp only [Engine.schedule] at hh
      cases hh
      cases ho
  refused _ _ := rfl

/-- **A scheduling call is traced as it ends.** -/
theorem traces_requestAction (h : w.Housed) (t : Target) (timing : Timing) (name : HandleName)
    (a : Action) : w.Traces [w.requestAction t timing name a]
      (w.requestAction t timing name a).after := by
  have huntraced (hq : (w.requestAction t timing name a).traced = false)
      (ht : (w.schedule t timing name a).2.trace = w.trace) :
      w.Traces [w.requestAction t timing name a] (w.requestAction t timing name a).after := by
    refine ⟨[], ?_, ht⟩
    rw [List.filter_cons_of_neg (Bool.eq_false_iff.1 hq)]
    exact .nil
  cases hr : w.reach t with
  | error p =>
    refine huntraced ?_ ?_
    · simp [Request.traced, requestAction, schedule, hr, Except.isOk, Except.toBool]
    · simp only [schedule, hr]
      exact trace_of_settings (settings_release w a)
  | ok r =>
    obtain ⟨id, v⟩ := r
    obtain ⟨e, he⟩ := h.reach hr
    have htrace := trace_schedule hr he timing name a
    have htraced := traced_requestAction hr he timing name a
    by_cases ht : t = .facade ∧ timing ≠ .atTeardown
    · rw [if_pos ht] at htrace
      rw [decide_eq_true ht] at htraced
      refine ⟨[recordOf e timing], ?_, htrace⟩
      rw [List.filter_cons_of_pos htraced]
      exact .cons (recorded_requestAction hr he ht.2 name a) .nil
    · rw [if_neg ht] at htrace
      rw [decide_eq_false ht] at htraced
      exact huntraced htraced htrace

theorem traces_requestStop (w : World) (t : Target) (delay : Time) (name : HandleName) :
    w.Traces [w.requestStop t delay name] (w.requestStop t delay name).after := by
  refine ⟨[], ?_, trace_of_settings (settings_stopAfter w t delay name)⟩
  have hstop : (w.requestStop t delay name).traced = false := by
    simp [Request.traced, requestStop, Payload.action?]
  rw [List.filter_cons_of_neg (Bool.eq_false_iff.1 hstop)]
  exact .nil

theorem traces_requestsEach (t : Target) (name : Option HandleName) (a : Action)
    (delays : List Time) (w : World) (h : w.Housed) (i : Nat) :
    w.Traces (w.requestsEach t name a i delays) (w.scheduleEach t name a i delays).2 := by
  induction delays generalizing w i with
  | nil => exact .of_eq rfl
  | cons delay rest ih =>
    have hq := traces_requestAction h t (.after delay)
      (name.getD (.word ((a.numbered i).tag.getD ""))) (a.numbered i)
    have hs := h.grows (grows_schedule w t (.after delay)
      (name.getD (.word ((a.numbered i).tag.getD ""))) (a.numbered i))
    rw [requestsEach]
    refine Traces.trans hq ?_
    unfold scheduleEach requestAction
    dsimp only
    generalize w.schedule t (.after delay) (name.getD (.word ((a.numbered i).tag.getD "")))
      (a.numbered i) = r at hs ⊢
    obtain ⟨reply, v⟩ := r
    cases reply with
    | error p => exact .of_eq rfl
    | ok reply =>
      have hrest := ih v hs (i + 1)
      dsimp only
      split <;> rename_i heq <;> rwa [heq] at hrest

/-! ### Commands -/

theorem trace_configure (w : World) (call : ConfigCall) : (w.configure call).2.trace = w.trace := by
  cases call with
  | get | select => exact trace_of_settings (settings_configure w id)
  | chooseKernel name =>
    rw [configure, chooseKernel]
    split
    · rfl
    · exact trace_onConfig fun c => trace_write w _
  | chooseScheduler name => exact trace_chooseScheduler w name
  | assign text =>
    refine trace_onConfig fun c => ?_
    split
    · rfl
    · exact trace_apply w _
  | applyJson text =>
    rw [configure]
    split
    · rfl
    · exact trace_apply w _
  | reset => exact trace_write w _
  | load content =>
    rw [configure]
    unfold load
    split
    · split
      · rfl
      · rename_i c _
        have h := trace_apply w c
        split <;> rename_i ha <;> rwa [ha] at h
    · rfl

theorem trace_enroll (w : World) (call : RegistryCall) : (w.enroll call).2.trace = w.trace := by
  cases call with
  | registerKernel | registerScheduler => rfl
  | _ => exact trace_of_settings (settings_enroll w id)

end World

/-- The command starts the trace anew or clears it. -/
def Command.retraces : Command → Bool
  | .trace (.start _) | .trace .clear => true
  | _ => false

namespace World

variable {w : World}

/-- **A command that runs nothing leaves the records of its scheduling calls and no others**, unless
it starts the trace anew or clears it. -/
theorem traces_perform (h : w.Housed) {c : Command} (hc : c.retraces = false) :
    w.Traces (w.requests c) (w.perform c).2 := by
  cases c with
  | schedule t timing name a => exact traces_requestAction h t timing name a
  | scheduleEach t delays name a =>
    have hs := traces_requestsEach t name a delays w h 0
    rw [perform]
    split <;> rename_i heq <;> rwa [heq] at hs
  | chain t tag delay length name =>
    cases length with
    | zero => exact .of_eq rfl
    | succ left => exact traces_requestAction h t _ name _
  | stopAfter t delay name => exact traces_requestStop w t delay name
  | config call => exact .of_eq (trace_configure w call)
  | registry call => exact .of_eq (trace_enroll w call)
  | trace call =>
    cases call with
    | report => exact .of_eq rfl
    | _ => cases hc
  | _ => exact .of_eq (trace_of_settings (settings_perform w id id))

theorem trace_retraced (w : World) {c : Command} (hc : c.retraces = true) :
    (w.perform c).2.trace.records = [] := by
  cases c with
  | trace call =>
    cases call with
    | start name => rfl
    | clear => rfl
    | report => cases hc
  | _ => cases hc

end World

namespace Machine

variable {m : Machine} {x : Move}

/-- The move starts the trace anew or clears it. -/
def retraces (m : Machine) (x : Move) : Bool := (m.onset? x).any fun p => p.2.retraces

theorem drives_of_retraces {c : Command} (hc : c.retraces = true) : c.drives = false := by
  cases c <;> first | rfl | cases hc

/-- **The trace gets the records of the scheduling calls of a move and no others**, unless it is
started anew or cleared. -/
theorem traces_make (hm : m.world.Housed) (h : m.retraces x = false) :
    m.world.Traces (m.requests x) (m.make x).world := by
  cases ho : m.onset? x with
  | none =>
    rw [requests, ho]
    exact .of_eq (trace_make ho)
  | some p =>
    obtain ⟨v, c⟩ := p
    obtain ⟨hv, hmake⟩ := settings_onset ho
    rw [retraces, ho, Option.any_some] at h
    rw [requests, ho, Option.elim_some]
    have htraces : v.Traces (v.requests c) (m.make x).world := by
      cases hd : c.drives with
      | true =>
        rw [hd, if_pos rfl] at hmake
        have hrequests : v.requests c = [] := by cases c <;> first | rfl | cases hd
        rw [hrequests]
        exact .of_eq (World.trace_of_settings hmake)
      | false =>
        rw [hd, if_neg Bool.false_ne_true] at hmake
        have hhoused := hm.grows (.of_places (places_onset ho))
        obtain ⟨rs, hrs, ht⟩ := World.traces_perform hhoused h
        exact ⟨rs, hrs, (World.trace_of_settings hmake).trans ht⟩
    obtain ⟨rs, hrs, ht⟩ := htraces
    refine ⟨rs, hrs, ?_⟩
    rw [ht, World.trace_of_settings hv]

theorem records_retraced (h : m.retraces x = true) : (m.make x).world.trace.records = [] := by
  obtain ⟨⟨v, c⟩, ho, hc⟩ := (Option.any_eq_true _ _).1 h
  obtain ⟨-, hmake⟩ := settings_onset ho
  rw [drives_of_retraces hc, if_neg Bool.false_ne_true] at hmake
  rw [World.trace_of_settings hmake]
  exact v.trace_retraced hc

end Machine

end EventSim
