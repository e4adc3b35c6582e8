import EventSim.Proofs.Machine.Carries
import EventSim.Proofs.Refusals.Stories
import EventSim.Proofs.Refusals.Worlds

/-!
# Machines without refused calls

`Machine.Purges` says that two machines agree apart from refused calls: their worlds do, and what
waits on the stack of the second one is what waits on the stack of the first one without the calls
that were refused.  As long as the replies are known beforehand (`Machine.Heeds`), a step of the
first machine is a step of the second one (`Purges.step`).  While the first one has a call refused,
the second one stands still (`Purges.step_refused`).
-/

namespace EventSim

/-- The frames without refused calls; the bodies among them belong to the events. -/
def purgedFrames (T : Replies) : List (KernelId × Nat) → List Frame → List Frame
  | _, [] => []
  | events, .body reporting left :: rest =>
    .body reporting (purgedAll T events.head? left) :: purgedFrames T events.tail rest
  | events, .answering reporting command left :: rest =>
    .answering reporting command (purgedAll T events.head? left) ::
      purgedFrames T events.tail rest
  | events, f :: rest => f :: purgedFrames T events rest

namespace Machine

/-- The worlds agree apart from refused calls, and so does what waits on the stacks. -/
inductive Purges (T : Replies) (events : List (KernelId × Nat)) (b c : List Entry) :
    Machine → Machine → Prop
  | mk {w v : World} {s : List Frame} {result : Option (Except Panic Reply)} :
      w.Purges T b c v →
      Purges T events b c ⟨w, s, result⟩ ⟨v, purgedFrames T events s, result⟩

/-- If the next step starts a call, the replies tell how it ends. -/
def Heeds (m : Machine) (T : Replies) (events : List (KernelId × Nat)) : Prop :=
  ∀ reporting x left rest, m.stack = .body reporting (x :: left) :: rest →
    T events.head? left.length = if x.drives then none else (m.world.perform x).1.toOption

/-- The next step starts a call that is refused. -/
def Refuses (m : Machine) : Prop :=
  ∃ reporting x left rest e, m.stack = .body reporting (x :: left) :: rest ∧ x.drives = false ∧
    (m.world.perform x).1 = .ok (.refused e)

variable {T : Replies} {events : List (KernelId × Nat)} {b c : List Entry} {w v : World}
  {id : KernelId} {s rest : List Frame} {result : Option (Except Panic Reply)}
  {x : Command} {reply : Option Reply}

theorem Heeds.kept {m : Machine} {reporting : Bool} {left : List Command} (hT : m.Heeds T events)
    (hr : ¬ m.Refuses) (hs : m.stack = .body reporting (x :: left) :: rest) (e : SimError) :
    T events.head? left.length ≠ some (.refused e) := by
  intro he
  have hreply := hT reporting x left rest hs
  rw [he] at hreply
  cases hd : x.drives with
  | true =>
    rw [hd] at hreply
    cases hreply
  | false =>
    rw [hd] at hreply
    refine hr ⟨reporting, x, left, rest, e, hs, hd, ?_⟩
    cases hp : (m.world.perform x).1 with
    | error p =>
      rw [hp] at hreply
      cases hreply
    | ok r =>
      rw [hp] at hreply
      cases hreply
      rfl

/-- A call that is refused gives its action up and comes back; nothing else happens. -/
theorem Refuses.step {m : Machine} (hr : m.Refuses) (ho : m.OnKernel) :
    ∃ reporting x left rest e, m.stack = .body reporting (x :: left) :: rest ∧
      x.drives = false ∧ (m.world.perform x).1 = .ok (.refused e) ∧ x.Refusable ∧
      m.step =
        ⟨{ m.world with
            journal := (if reporting then [.did x.name (.refused e)] else []) ++
              (World.releases x.action?.toList ++ m.world.journal) },
          .body reporting left :: rest, m.result⟩ := by
  obtain ⟨reporting, x, left, rest, e, hstack, hd, hp⟩ := hr
  obtain ⟨w, stack, result⟩ := m
  cases hstack
  have hx := (List.forall_mem_cons.1 (List.forall_mem_cons.1 ho.waiting).1).1.self
  obtain ⟨hrefusable, hw⟩ := World.perform_of_refused hx hp
  refine ⟨reporting, x, left, rest, e, rfl, hd, hp, hrefusable, ?_⟩
  have hperform : w.perform x = (.ok (.refused e), _) := Prod.ext hp hw
  rw [Machine.step]
  dsimp only
  rw [hx.settles_eq_false hd, Bool.and_false, if_neg Bool.false_ne_true, start_of_not_drives hd,
    hperform]
  cases reporting <;> rfl

namespace Purges

/-! ### Ends of calls -/

theorem panic (m : w.Purges T b c v) (p : Panic) :
    Purges T events b c (Machine.panic ⟨w, s, result⟩ p)
      (Machine.panic ⟨v, purgedFrames T events s, result⟩ p) :=
  .mk (s := []) m.forgetInjected

theorem deliver (m : w.Purges T b c v) (r : Reply) :
    Purges T events b c (Machine.deliver ⟨w, s, result⟩ r)
      (Machine.deliver ⟨v, purgedFrames T events s, result⟩ r) := by
  cases s with
  | nil => exact .mk (s := []) m
  | cons f rest =>
    cases f with
    | answering reporting command left =>
      refine .mk (s := .body reporting left :: rest) ?_
      split
      · exact m.log _
      · exact m
    | scenario run stage =>
      cases stage with
      | judging saved probe left replies =>
        have hs (stage : ScenarioStage) : purgedFrames T events (.scenario run stage :: rest) =
            .scenario run stage :: purgedFrames T events rest := rfl
        rw [hs]
        unfold Machine.deliver
        dsimp only
        split
        · exact .mk (s := .scenario run (.probing saved left (r :: replies)) :: rest) m
        · rename_i failure _
          exact .mk (s := .scenario run (.judged saved (.error failure)) :: rest) m
      | _ => exact .mk m
    | _ => exact .mk m

/-- A command that runs nothing has ended. -/
theorem conclude {y : Command} (h : World.PurgesEnd T b c (w.perform x) (v.perform y)) :
    Purges T events b c
      (match w.perform x with
        | (.error p, w) => Machine.panic ⟨w, s, result⟩ p
        | (.ok r, w) => Machine.deliver ⟨w, s, result⟩ r)
      (match v.perform y with
        | (.error p, v) => Machine.panic ⟨v, purgedFrames T events s, result⟩ p
        | (.ok r, v) => Machine.deliver ⟨v, purgedFrames T events s, result⟩ r) := by
  generalize w.perform x = r at h
  generalize v.perform y = r' at h
  obtain ⟨reply, w'⟩ := r
  obtain ⟨reply', v'⟩ := r'
  obtain ⟨hr, hm⟩ := h
  cases hr
  cases reply with
  | error p => exact panic hm p
  | ok r => exact deliver hm r

/-! ### Starts of calls -/

/-- An action starts, the one of an event that the calls of its body will belong to. -/
theorem startAction (m : w.Purges T b c v) {a : Action} (ha : a.Local) (event : KernelId × Nat) :
    Purges T (event :: events) b c (Machine.startAction ⟨w, s, result⟩ a)
      (Machine.startAction ⟨v, purgedFrames T events s, result⟩ (a.purged T event)) := by
  have hbody {w v : World} (m : w.Purges T b c v) : Purges T (event :: events) b c
      ⟨w, .body a.reporting a.body :: s, result⟩
      ⟨v, .body (a.purged T event).reporting (a.purged T event).body :: purgedFrames T events s,
        result⟩ := by
    rw [Action.reporting_purged, Action.body_purged]
    exact .mk (s := .body a.reporting a.body :: s) m
  unfold Machine.startAction
  dsimp only
  rw [Action.tag_purged, Action.target_purged]
  split
  · exact hbody m
  · rename_i tag htag
    have ht : a.target.IsKernel := ha.resolve_left fun h => by
      rw [h] at htag
      cases htag
    rcases m.nowOf ht with ⟨p, hw, hv⟩ | ⟨now, hw, hv⟩
    · rw [hw, hv]
      exact panic m p
    · rw [hw, hv]
      dsimp only
      rcases m.contextOf ht with ⟨p, hw, hv⟩ | ⟨context, hw, hv⟩
      · rw [hw, hv]
        exact panic m p
      · rw [hw, hv]
        exact hbody (m.log _)

theorem beginRun (m : w.Purges T b c v) (id : KernelId) :
    Purges T events b c (Machine.beginRun ⟨w, s, result⟩ id)
      (Machine.beginRun ⟨v, purgedFrames T events s, result⟩ id) := by
  unfold Machine.beginRun
  dsimp only
  rw [m.engine?]
  cases w.engine? id with
  | none => exact deliver m .done
  | some e =>
    cases e with
    | fixed k => exact deliver m .done
    | builtIn watched k =>
      exact .mk (s := .running id :: s) (m.setEngine id (.builtIn watched k.beginRun))

theorem beginDestroy (m : w.Purges T b c v) (id : KernelId) :
    Purges T events b c (Machine.beginDestroy ⟨w, s, result⟩ id)
      (Machine.beginDestroy ⟨v, purgedFrames T events s, result⟩ id) := by
  unfold Machine.beginDestroy
  dsimp only
  rw [m.engine?]
  cases w.engine? id with
  | none => exact deliver m .done
  | some e =>
    cases e with
    | fixed k => exact deliver m .done
    | builtIn watched k =>
      refine .mk (s := .destroying id :: s) ?_
      split
      · exact m.report _
      · exact m

/-- **A command that is not refused starts alike.** -/
theorem start (m : w.Purges T b c v) (hx : x.OnKernel)
    (hr : x.drives = false → ∀ e, (w.perform x).1 ≠ .ok (.refused e))
    (hreply : x.drives = false → reply = (w.perform x).1.toOption) :
    Purges T events b c (Machine.start ⟨w, s, result⟩ x)
      (Machine.start ⟨v, purgedFrames T events s, result⟩ (x.purged T reply)) := by
  cases hd : x.drives with
  | false =>
    rw [start_of_not_drives hd, start_of_not_drives ((Command.drives_purged x reply).trans hd),
      hreply hd]
    exact conclude (.perform m hx (hr hd))
  | true =>
    cases x with
    | run t =>
      have hp : (Command.run t).purged T reply = .run t := rfl
      rw [hp]
      unfold Machine.start
      dsimp only
      rcases m.reach hx with ⟨p, hw, hv⟩ | ⟨id, hw, hv⟩
      · rw [hw, hv]
        exact panic m p
      · rw [hw, hv]
        exact beginRun m id
    | destroy t =>
      have hp : (Command.destroy t).purged T reply = .destroy t := rfl
      rw [hp]
      unfold Machine.start
      dsimp only
      rcases m.reach hx with ⟨p, hw, hv⟩ | ⟨id, hw, hv⟩
      · rw [hw, hv]
        exact panic m p
      · rw [hw, hv]
        exact beginDestroy m id
    | teardown | scenario => exact hx.elim
    | _ => cases hd

/-! ### Steps -/

theorem stepRun (m : w.Purges T b c v) (hw : w.Holds Action.OnKernel) (id : KernelId) :
    Purges T (Machine.events ⟨w, .running id :: rest, result⟩ events) b c
      (Machine.stepRun ⟨w, .running id :: rest, result⟩ id rest)
      (Machine.stepRun ⟨v, .running id :: purgedFrames T events rest, result⟩ id
        (purgedFrames T events rest)) := by
  unfold Machine.stepRun Machine.events
  dsimp only [Machine.incident?]
  rw [m.engine?]
  cases he : w.engine? id with
  | none =>
    rw [onset_returned]
    exact deliver m .done
  | some e =>
    cases e with
    | fixed k =>
      rw [onset_returned]
      exact deliver m .done
    | builtIn watched k =>
      dsimp only [Option.map_some, Engine.purged, Kernel.purged]
      have hd := k.dequeue_recast (g := fun uid a => a.purged T (k.id, uid))
      generalize hq : k.dequeue = d at hd
      generalize (k.recast fun uid a => a.purged T (k.id, uid)).dequeue = d' at hd
      cases hd with
      | idle =>
        rw [onset_returned]
        exact deliver (m.setEngine id (.builtIn watched k.endRun)) .done
      | skipped uid p k' =>
        rw [← Kernel.purged_of_does (.skipped hq)]
        refine .mk (s := .running id :: rest) ?_
        refine (m.setEngine id (.builtIn watched k')).releaseAll ?_
        rw [Payload.action?_map, Option.toList_map, Action.filterMap_tag_purged]
      | past uid p k' =>
        rw [← Kernel.purged_of_does (.strayed hq)]
        refine panic (s := .running id :: rest) ?_ _
        refine (m.setEngine id (.builtIn watched k')).releaseAll ?_
        rw [Payload.action?_map, Option.toList_map, Action.filterMap_tag_purged]
      | started e k' =>
        rw [← Kernel.purged_of_does (.started hq)]
        dsimp only [Event.recastAction, Event.recast]
        cases hp : e.payload with
        | halt =>
          have ho : Incident.onset? (.started k'.id e.item k'.now k'.context) = none := by
            rw [Incident.onset?, Event.item, hp]
            rfl
          rw [Option.bind_some, ho]
          exact .mk (s := .running id :: rest) (m.setEngine id (.builtIn watched k'.stop))
        | act a =>
          have ho : Incident.onset? (.started k'.id e.item k'.now k'.context) =
              some (k.id, e.key.uid) := by
            rw [Incident.onset?, Event.item, hp, (Kernel.Does.started hq).id_eq]
            rfl
          have ha : a.OnKernel := by
            refine hw id watched k he a ?_
            have hl := (Kernel.Does.started hq).load.subset
              (List.mem_append_left _ List.mem_cons_self)
            rwa [hp] at hl
          rw [Option.bind_some, ho]
          exact startAction (s := .running id :: rest) (m.setEngine id (.builtIn watched k')) ha.1
            (k.id, e.key.uid)

theorem stepDestroy (m : w.Purges T b c v) (hw : w.Holds Action.OnKernel) (id : KernelId) :
    Purges T (Machine.events ⟨w, .destroying id :: rest, result⟩ events) b c
      (Machine.stepDestroy ⟨w, .destroying id :: rest, result⟩ id rest)
      (Machine.stepDestroy ⟨v, .destroying id :: purgedFrames T events rest, result⟩ id
        (purgedFrames T events rest)) := by
  unfold Machine.stepDestroy Machine.events
  dsimp only [Machine.incident?]
  rw [m.engine?]
  cases he : w.engine? id with
  | none =>
    rw [onset_returned]
    exact deliver m .done
  | some e =>
    cases e with
    | fixed k =>
      rw [onset_returned]
      exact deliver m .done
    | builtIn watched k =>
      dsimp only [Option.map_some, Engine.purged]
      cases hq : k.popTeardown with
      | none =>
        have hq' : (k.purged T).popTeardown = none := by
          rw [Kernel.purged, Kernel.popTeardown_recast, hq]
          rfl
        have hsweep : (k.purged T).sweep.2 = k.sweep.2.purged T := k.sweep_recast
        rw [hq', onset_returned]
        dsimp only
        rw [hsweep]
        refine deliver ((m.setEngine id (.builtIn watched k.sweep.2)).releaseAll ?_) .done
        exact k.filterMap_sweep_recast fun uid a => a.tag_purged
      | some r =>
        obtain ⟨e, k'⟩ := r
        have hq' : (k.purged T).popTeardown =
            some (e.recast fun uid a => a.purged T (k.id, uid), k'.purged T) := by
          rw [Kernel.purged_of_does (.unwound hq), Kernel.purged, Kernel.popTeardown_recast, hq]
          rfl
        have ho : Incident.onset? (.started k'.id e.item k'.now k'.context) =
            some (k.id, e.uid) := by
          rw [Incident.onset?, (Kernel.Does.unwound hq).id_eq]
          rfl
        have ha : e.action.OnKernel := hw id watched k he e.action <|
          (Kernel.Does.unwound hq).load.subset (List.mem_append_left _ List.mem_cons_self)
        rw [hq', Option.bind_some, ho]
        exact startAction (s := .destroying id :: rest) (m.setEngine id (.builtIn watched k'))
          ha.1 (k.id, e.uid)

variable {m n : Machine}

/-- **All other steps are taken together.** -/
theorem step (h : Purges T events b c m n) (hne : m.stack ≠ [])
    (ho : m.OnKernel) (hT : m.Heeds T events) (hr : ¬ m.Refuses) :
    Purges T (m.events events) b c m.step n.step := by
  obtain ⟨hm⟩ := h
  rename_i w v s result
  rcases s with _ | ⟨f, rest⟩
  · exact absurd rfl hne
  · have hf := (List.forall_mem_cons.1 ho.waiting).1
    cases f with
    | body reporting left =>
      rcases left with _ | ⟨x, left⟩
      · rw [purgedFrames, purgedAll]
        exact .mk hm
      · have hx := (List.forall_mem_cons.1 hf).1.self
        have hreply := hT reporting x left rest rfl
        have hrefused (hd : x.drives = false) (e : SimError) :
            (w.perform x).1 ≠ .ok (.refused e) := fun hp =>
          hr ⟨reporting, x, left, rest, e, rfl, hd, hp⟩
        rw [events_of_call, purgedFrames, purgedAll_of_kept (hT.kept hr rfl), Machine.step,
          Machine.step]
        dsimp only
        rw [Command.settles_purged, Command.name_purged]
        have hstart {w' v' : World} (hm : w'.Purges T b c v')
            (hw' : x.drives = false → w' = w) :
            Purges T events b c
              (Machine.start ⟨w', .answering reporting x.name left :: rest, result⟩ x)
              (Machine.start ⟨v', purgedFrames T events (.answering reporting x.name left :: rest),
                result⟩ (x.purged T (T events.head? left.length))) := by
          refine start hm hx (fun hd => ?_) fun hd => ?_
          · rw [hw' hd]
            exact hrefused hd
          · rw [hw' hd, hreply, hd]
            rfl
        cases hd : reporting && x.settles with
        | false => exact hstart hm fun _ => rfl
        | true =>
          refine hstart (hm.log _) fun hdrives => ?_
          rw [hx.settles_eq_false hdrives, Bool.and_false] at hd
          cases hd
    | answering reporting command left =>
      exact .mk (s := .body reporting left :: rest) hm
    | running id => exact stepRun hm ho.stored id
    | destroying id => exact stepDestroy hm ho.stored id
    | clearing | scenario => exact hf.elim

/-- **A step in which a call is refused changes nothing** but what the journal is told. -/
theorem step_refused (h : Purges T events b c m n) (ho : m.OnKernel) (hT : m.Heeds T events)
    (hr : m.Refuses) : m.events events = events ∧
      Purges T events m.step.world.journal n.world.journal m.step n := by
  obtain ⟨hm⟩ := h
  obtain ⟨reporting, x, left, rest, e, hstack, hd, hp, -, hstep⟩ := hr.step ho
  have hreply := hT reporting x left rest hstack
  rw [hd, hp] at hreply
  cases hstack
  have hpurged : purgedFrames T events (.body reporting (x :: left) :: rest) =
      purgedFrames T events (.body reporting left :: rest) := by
    rw [purgedFrames, purgedFrames, purgedAll_of_refused hreply]
  rw [hstep, hpurged]
  exact ⟨events_of_call events, .mk ((hm.told (World.releases x.action?.toList)).told _)⟩

end Purges

end Machine

end EventSim
