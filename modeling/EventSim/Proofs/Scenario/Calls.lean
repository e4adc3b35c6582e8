import EventSim.Proofs.Machine.Calls

/-!
# Scenarios as programs of calls

The machine carries a scenario out step by step, and the calls of its plan are made in the middle of
the call that runs it.  `World.stage` says what that comes to: a teardown, the probes of the plan one
after the other, each called as if from outside, until one is not content, another teardown, and
the configuration put back.  **Running a scenario is just that** (`call_scenario`).
-/

namespace EventSim

namespace World

/-- The probes of a plan are called one after the other until one is not content. -/
def follow (w : World) :
    List Scenario.Probe → List Reply → Except Panic (Except String (Nat × Time)) × World
  | [], replies => (.ok (.ok (Scenario.outcome replies)), w)
  | probe :: left, replies =>
    match w.call probe.command with
    | (.error p, w) => (.error p, w)
    | (.ok reply, w) =>
      match probe.judge (reply :: replies) with
      | some failure => (.ok (.error failure), w)
      | none => w.follow left (reply :: replies)

/-- The plan of a scenario is followed under the scheduler that is asked for. -/
def rehearse (w : World) (run : ScenarioRun) :
    Except Panic (Except String (Nat × Time)) × World :=
  match w.chooseScheduler run.scheduler with
  | (.error p, w) => (.error p, w.forgetInjected)
  | (.ok (.refused e), w) => (.ok (.error e.message), w)
  | (.ok _, w) => { w with observed := [] }.follow run.plan []

/-- A scenario ends: the configuration is put back. -/
def restore (w : World) (run : ScenarioRun) (saved : Config)
    (verdict : Except String (Nat × Time)) : Except Panic Reply × World :=
  match w.apply saved with
  | (.error p, w) => (.error p, w.forgetInjected)
  | (.ok _, w) => (.ok (.scenario (run.finish verdict)), w.forgetInjected)

/-- A scenario between its two teardowns and after them. -/
def stage (w : World) (run : ScenarioRun) : Except Panic Reply × World :=
  match w.call .teardown with
  | (.error p, w) => (.error p, w)
  | (.ok _, w) =>
    match w.config with
    | .error p => (.error p, w.forgetInjected)
    | .ok saved =>
      match w.rehearse run with
      | (.error p, w) => (.error p, w)
      | (.ok verdict, w) =>
        match w.call .teardown with
        | (.error p, w) => (.error p, w)
        | (.ok _, w) => w.restore run saved verdict

end World

namespace Machine

variable {m : Machine} {w : World} {run : ScenarioRun} {saved : Config}

/-- After a panic in one of its calls, a scenario is unwound. -/
theorem leads_of_panic {s : List Frame} {c : Command} {p : Panic} {v : World}
    (h : w.call c = (.error p, v)) : (start ⟨w, s, none⟩ c).Leads ⟨v, [], some (.error p)⟩ := by
  have hl := leads_call w c s none
  rwa [h] at hl

/-- After one of its calls, a scenario gets the reply. -/
theorem leads_of_reply {s : List Frame} {c : Command} {x : Reply} {v : World}
    (h : w.call c = (.ok x, v)) : (start ⟨w, s, none⟩ c).Leads (deliver ⟨v, s, none⟩ x) := by
  have hl := leads_call w c s none
  rwa [h] at hl

/-- The last teardown and the end of a scenario. -/
theorem leads_judged (w : World) (run : ScenarioRun) (saved : Config)
    (verdict : Except String (Nat × Time)) :
    Leads ⟨w, [.scenario run (.judged saved verdict)], none⟩
      (match w.call .teardown with
      | (.error p, w) => ⟨w, [], some (.error p)⟩
      | (.ok _, w) =>
        let r := w.restore run saved verdict
        ⟨r.2, [], some r.1⟩) := by
  have hstep : Leads ⟨w, [.scenario run (.judged saved verdict)], none⟩
      (start ⟨w, [.scenario run (.restoring saved verdict)], none⟩ .teardown) :=
    Leads.single (List.cons_ne_nil _ _)
  refine hstep.trans ?_
  split
  · exact leads_of_panic ‹_›
  · rename_i x v h
    refine (leads_of_reply h).trans ?_
    have hlast : Leads ⟨v, [.scenario run (.restoring saved verdict)], none⟩
        (stepRestore ⟨v, [.scenario run (.restoring saved verdict)], none⟩ run saved verdict []) :=
      Leads.single (List.cons_ne_nil _ _)
    have hrestore : stepRestore ⟨v, [.scenario run (.restoring saved verdict)], none⟩ run saved
        verdict [] = ⟨(v.restore run saved verdict).2, [], some (v.restore run saved verdict).1⟩ := by
      unfold stepRestore World.restore
      dsimp only
      generalize v.apply saved = r
      obtain ⟨x, u⟩ := r
      cases x <;> rfl
    rw [hrestore] at hlast
    exact hlast

/-- The probes of a plan are called one after the other. -/
theorem leads_follow (run : ScenarioRun) (saved : Config) (left : List Scenario.Probe)
    (w : World) (replies : List Reply) :
    Leads ⟨w, [.scenario run (.probing saved left replies)], none⟩
      (match w.follow left replies with
      | (.error p, w) => ⟨w, [], some (.error p)⟩
      | (.ok verdict, w) => ⟨w, [.scenario run (.judged saved verdict)], none⟩) := by
  induction left generalizing w replies with
  | nil => exact Leads.single (List.cons_ne_nil _ _)
  | cons probe left ih =>
    have hstep : Leads ⟨w, [.scenario run (.probing saved (probe :: left) replies)], none⟩
        (start ⟨w, [.scenario run (.judging saved probe left replies)], none⟩ probe.command) :=
      Leads.single (List.cons_ne_nil _ _)
    refine hstep.trans ?_
    rw [World.follow]
    cases h : w.call probe.command with
    | mk x v =>
      cases x with
      | error p => exact leads_of_panic h
      | ok reply =>
        refine (leads_of_reply h).trans ?_
        simp only [deliver]
        cases probe.judge (reply :: replies) with
        | some failure => exact .refl _
        | none => exact ih v (reply :: replies)

/-- The plan of a scenario is followed once the first teardown has ended. -/
theorem leads_rehearse (w : World) (run : ScenarioRun) :
    Leads ⟨w, [.scenario run .opened], none⟩
      (match w.config with
      | .error p => ⟨w.forgetInjected, [], some (.error p)⟩
      | .ok saved =>
        match w.rehearse run with
        | (.error p, w) => ⟨w, [], some (.error p)⟩
        | (.ok verdict, w) => ⟨w, [.scenario run (.judged saved verdict)], none⟩) := by
  have hstep : Leads ⟨w, [.scenario run .opened], none⟩
      (stepOpened ⟨w, [.scenario run .opened], none⟩ run []) := Leads.single (List.cons_ne_nil _ _)
  refine hstep.trans ?_
  unfold stepOpened World.rehearse
  dsimp only
  cases w.config with
  | error p => exact .refl _
  | ok saved =>
    dsimp only
    generalize w.chooseScheduler run.scheduler = r
    obtain ⟨x, v⟩ := r
    cases x with
    | error p => exact .refl _
    | ok reply =>
      cases reply with
      | refused e => exact .refl _
      | _ => exact leads_follow run saved run.plan { v with observed := [] } []

end Machine

/-- **A scenario comes to a program of calls.** -/
theorem World.call_scenario {request : ScenarioRequest} {run : ScenarioRun}
    (h : ScenarioRun.ofRequest? request = some run) (w : World) :
    w.call (.scenario request) = w.stage run := by
  have hstart : Machine.ofCall w (.scenario request) =
      Machine.start ⟨w, [.scenario run .opened], none⟩ .teardown := by
    simp only [Machine.ofCall, Machine.start, h]
  obtain ⟨x, v, hstage, hl⟩ : ∃ x v, w.stage run = (x, v) ∧
      (Machine.ofCall w (.scenario request)).Leads ⟨v, [], some x⟩ := by
    rw [hstart, stage]
    generalize ht : w.call .teardown = r
    obtain ⟨x, v⟩ := r
    cases x with
    | error p => exact ⟨_, _, rfl, Machine.leads_of_panic ht⟩
    | ok x =>
      have hopened := (Machine.leads_of_reply (s := [.scenario run .opened]) ht).trans
        (Machine.leads_rehearse v run)
      dsimp only
      cases hc : v.config with
      | error p =>
        rw [hc] at hopened
        exact ⟨_, _, rfl, hopened⟩
      | ok saved =>
        rw [hc] at hopened
        dsimp only at hopened ⊢
        generalize v.rehearse run = r at hopened
        obtain ⟨y, u⟩ := r
        cases y with
        | error p => exact ⟨_, _, rfl, hopened⟩
        | ok verdict =>
          have hjudged := hopened.trans (Machine.leads_judged u run saved verdict)
          dsimp only
          generalize u.call .teardown = r at hjudged
          obtain ⟨z, u'⟩ := r
          cases z <;> exact ⟨_, _, rfl, hjudged⟩
  rw [World.call_of_leads hl, hstage]

end EventSim
