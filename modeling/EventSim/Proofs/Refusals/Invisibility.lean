import EventSim.Proofs.Refusals.Vouchers

/-!
# Refused calls are invisible

`World.unrefused w P` is the program `P` without the calls that are refused when it is carried out
in `w`, in actions as well as outside.  `refusals_invisible`: on fresh kernels **its story is the
story of `P` without the chapters of the refused calls**.  Every other call ends with the same
reply, the numbers in the handles included, the same events start in the same order, with the same
actions, at the same times and under the same contexts, and both programs leave the same kernels
behind.
-/

namespace EventSim

namespace World

variable {T : Replies} {b c : List Entry} {w v : World} {P : List Command}

/-! ### Programs -/

/-- **Two programs that differ in refused calls have stories that differ in refused calls.** -/
theorem Purges.story (h : w.Purges T b c v) (hw : w.Holds Action.OnKernel)
    (hP : ∀ x ∈ P, x.All Command.OnKernel) (hT : w.Heeded T P) :
    v.story (purgedAll T none P) = (w.story P).filterMap (Chapter.purged T) ∧
      ∃ b' c', (w.after P).Purges T b' c' (v.after (purgedAll T none P)) := by
  induction P generalizing w v b c with
  | nil =>
    rw [purgedAll]
    exact ⟨rfl, b, c, h⟩
  | cons x rest ih =>
    obtain ⟨hx, hrest⟩ := List.forall_mem_cons.1 hP
    obtain ⟨hcall, hreply, hheeded⟩ := hT
    by_cases hr : ∃ e, (w.call x).1 = .ok (.refused e)
    · obtain ⟨e, hr⟩ := hr
      rw [hr] at hreply
      obtain ⟨hstory, b', c', hafter⟩ := h.call_refused hw hx hr
      obtain ⟨hstories, hend⟩ := ih hafter (holds_call hw hx) hrest hheeded
      have hnone : (w.ending x rest).purged T = none := by
        rw [ending, Chapter.purged, hr]
        rfl
      rw [purgedAll_of_refused hreply]
      refine ⟨?_, hend⟩
      rw [World.story, hstory, List.nil_append, List.filterMap_cons_none hnone]
      exact hstories
    · have hr (e : SimError) : (w.call x).1 ≠ .ok (.refused e) := fun he => hr ⟨e, he⟩
      have hkept (e : SimError) : T none rest.length ≠ some (.refused e) := by
        rw [hreply]
        intro he
        cases hend : (w.call x).1 with
        | error p =>
          rw [hend] at he
          cases he
        | ok r =>
          rw [hend] at he
          cases he
          exact hr e hend
      obtain ⟨hstory, hending, b', c', hafter⟩ := h.call hw hx hcall hr rest hreply
      obtain ⟨hstories, hend⟩ := ih hafter (holds_call hw hx) hrest hheeded
      rw [purgedAll_of_kept hkept]
      refine ⟨?_, hend⟩
      rw [World.story, World.story, hstory, List.filterMap_append,
        List.filterMap_cons_some hending, hstories]

theorem forgoes_story (hw : w.Holds Action.OnKernel) (hP : ∀ x ∈ P, x.All Command.OnKernel) :
    ∀ x ∈ w.story P, x.Forgoes := by
  induction P generalizing w with
  | nil => exact fun x hx => (List.not_mem_nil hx).elim
  | cons c rest ih =>
    obtain ⟨hc, hrest⟩ := List.forall_mem_cons.1 hP
    intro x hx
    rcases List.mem_append.1 hx with hx | hx
    · exact Machine.forgoes_story (Machine.onKernel_ofCall hw hc) _ _ x hx
    · rcases List.mem_cons.1 hx with rfl | hx
      · exact forgoes_ending hw hc rest
      · exact ih (holds_call hw hc) hrest x hx

/-! ### Before and after -/

namespace Fresh

theorem kernel (hw : w.Fresh) {id : KernelId} {watched : Bool} {k : Kernel Action}
    (hk : w.engine? id = some (.builtIn watched k)) :
    ∃ id systemId, k = .fresh id systemId := by
  obtain ⟨id, systemId, he⟩ := hw _ (List.mem_of_getElem? hk)
  cases he
  exact ⟨id, systemId, rfl⟩

theorem tallied (hw : w.Fresh) (hn : w.Numbered) : w.Tallied := by
  intro id watched k hk
  refine ⟨hn id watched k hk, ?_⟩
  obtain ⟨id, systemId, rfl⟩ := hw.kernel hk
  exact Kernel.tallied_fresh id systemId

theorem holds (hw : w.Fresh) : w.Holds Action.OnKernel := by
  intro id watched k hk a ha
  obtain ⟨id, systemId, rfl⟩ := hw.kernel hk
  cases ha

theorem vouched (hw : w.Fresh) : w.Vouched [] := by
  intro id watched k hk i hi
  obtain ⟨id, systemId, rfl⟩ := hw.kernel hk
  cases hi

/-- Fresh kernels hold no calls that could be refused. -/
theorem purges (hw : w.Fresh) (T : Replies) : w.Purges T w.journal w.journal w := by
  have hengines : w.engines.map (Engine.purged T) = w.engines := by
    refine (List.map_congr_left fun e he => ?_).trans (List.map_id _)
    obtain ⟨id, systemId, rfl⟩ := hw e he
    rw [Engine.purged, Kernel.purged, Kernel.recast_fresh]
    rfl
  have hmk := Purges.mk (T := T) (c := w.journal) (w := w) (j := []) rfl
  rw [hengines] at hmk
  exact hmk

end Fresh

/-- If the replies tell nothing of events that have not started, the worlds are the same, but for
the journal. -/
theorem Purges.eq_of_none (h : w.Purges T b c v) (t : w.Tallied)
    (hT : ∀ event n, ¬ w.Spent event → T (some event) n = none) :
    { v with journal := [] } = { w with journal := [] } := by
  obtain ⟨-⟩ := h
  have hengines : w.engines.map (Engine.purged T) = w.engines := by
    refine List.ext_getElem? fun id => ?_
    rw [List.getElem?_map]
    cases he : w.engines[id]? with
    | none => rfl
    | some e =>
      cases e with
      | fixed k => rfl
      | builtIn watched k =>
        obtain ⟨hid, -⟩ := t id watched k he
        have hself : k.purged T = k := by
          refine Kernel.recast_eq_self fun i hi a _ => Action.purged_of_none (fun n => ?_) a
          refine hT _ n fun hs => ?_
          obtain ⟨watched', l, hl, hspent⟩ := hs
          rw [hid] at hl
          cases (show w.engine? id = _ from he).symm.trans hl
          exact hspent.gone i hi rfl
        rw [Option.map_some, Engine.purged, hself]
  rw [hengines]

/-! ### Invisibility -/

/-- **Refused calls are invisible.**  On fresh kernels, a program of kernel calls and the program
without the calls that are refused in it have the same story, but for the chapters of these calls,
and leave the same world behind, but for the journal.  The calls that are left out are those whose
replies the story tells to be refusals.  Only scheduling calls with a delay and questions for the
delay that is left are refused; the action of such a call is given up, once.  No event starts that
no call has brought before that was answered a handle. -/
theorem refusals_invisible (hw : w.Fresh) (hn : w.Numbered)
    (hP : ∀ x ∈ P, x.All Command.OnKernel) :
    w.story (w.unrefused P) =
        (w.story P).filterMap (Chapter.purged (repliesIn (w.story P))) ∧
      { w.after (w.unrefused P) with journal := [] } = { w.after P with journal := [] } ∧
      (∀ x ∈ w.story P, x.ToldBy (repliesIn (w.story P))) ∧
      (∀ x ∈ w.story P, x.Forgoes) ∧
      Grounded [] (w.story P) := by
  have t := hw.tallied hn
  obtain ⟨hheeded, hleft⟩ := heeded t fun _ _ _ => rfl
  obtain ⟨hstory, b, c, hafter⟩ := (hw.purges _).story hw.holds hP hheeded
  exact ⟨hstory,
    hafter.eq_of_none ((courses_after w P).tallied t) fun event n => hleft (some event) n,
    hheeded.tellsOf, forgoes_story hw.holds hP, grounded_story hw.holds t hw.vouched hP⟩

/-- Calls that are refused stand before, in and after an event that runs. -/
def refusedProgram : List Command :=
  let t : Target := .kernel (.numbered 0)
  let event (n : Nat) (delay : Time) (body : List Command) : Command :=
    .schedule t (.after delay) (.numbered n) (.mk (some "event") true t body)
  [event 1 .least [],
    event 2 (.clamp 1) [event 3 .least [], .stopAfter t .greatest (.numbered 4), event 5 .zero [],
      .delayLeft t (.numbered 2)],
    .stopAfter t .least (.numbered 6),
    .run t,
    .delayLeft t (.numbered 2)]

/-- Six calls are refused, three of them inside of an action.  Without these the same two events
run. -/
theorem refusals_invisible_refusedProgram :
    let w := oneKernel
    let P := refusedProgram
    (w.story (w.unrefused P) =
        (w.story P).filterMap (Chapter.purged (repliesIn (w.story P))) ∧
      { w.after (w.unrefused P) with journal := [] } = { w.after P with journal := [] } ∧
      (∀ x ∈ w.story P, x.ToldBy (repliesIn (w.story P))) ∧
      (∀ x ∈ w.story P, x.Forgoes) ∧
      Grounded [] (w.story P)) ∧
    (w.unrefused P).map Command.name = ["schedule", "run"] ∧
    ((w.unrefused P).filterMap Command.action?).map (fun a => a.body.map Command.name) =
      [["schedule"]] ∧
    (w.story P).length - (w.story (w.unrefused P)).length = 6 := by
  have hfresh : oneKernel.Fresh := fun e he => ⟨0, 0, List.mem_singleton.1 he⟩
  refine ⟨refusals_invisible hfresh sound_oneKernel.numbered ?_, by decide +kernel,
    by decide +kernel, by decide +kernel⟩
  simp [refusedProgram, Command.All, Action.All, allOf, Command.OnKernel, Target.IsKernel,
    Action.Local, Action.target]

end World

end EventSim
