import EventSim.Proofs.Backends.Independence
import EventSim.Proofs.Translation.Machines

/-!
# Cancelling is as good as removing

A cancelled event stays stored until it comes out or its kernel is destroyed, a removed one is gone
at once.  `World.scenes_congr`: **nobody can tell which**.  If two programs on fresh kernels become
the same once every cancellation is replaced by a removal, then all their calls end alike, and the
same events start at the same times and under the same contexts.  After each of these steps the
kernels are the same, too, cancelled events apart.
-/

namespace EventSim

/-- Events are removed where they would be cancelled. -/
def Manner.removing : Manner where
  target := id
  eager := true
  unstopped := false

namespace Manner

@[simp] theorem removing_target (t : Target) : removing.target t = t := rfl

@[simp] theorem removing_eager : removing.eager = true := rfl

@[simp] theorem removing_unstopped : removing.unstopped = false := rfl

end Manner

mutual

theorem Command.removing_removing : ∀ c : Command,
    (c.translate .removing).translate .removing = c.translate .removing
  | .schedule .. => by
    simp only [Command.translate, Action.removing_removing, Manner.removing_target]
  | .scheduleEach .. => by
    simp only [Command.translate, Action.removing_removing, Manner.removing_target]
  | .cancel .. | .stopAfter .. | .stop _ | .chain .. | .idle | .remove .. | .isExpired ..
  | .delayLeft .. | .run _ | .destroy _ | .attach .. | .query .. | .inspect _ | .same ..
  | .forge .. | .build .. | .panic _ | .isPopulated | .attachNamed _ | .install _ | .teardown
  | .scenario _ | .config _ | .registry _ | .printing _ | .trace _ | .observe _ | .observations
  | .capture | .isStored _ | .backendName _ => by
    simp [Command.translate]

theorem Action.removing_removing : ∀ a : Action,
    (a.translate .removing).translate .removing = a.translate .removing
  | .mk _ _ _ _ => by
    simp only [Action.translate, translateAll_removing, Manner.removing_target]

theorem translateAll_removing : ∀ l : List Command,
    translateAll .removing (translateAll .removing l) = translateAll .removing l
  | [] => rfl
  | c :: rest => by
    rw [translateAll, translateAll, Command.removing_removing c, translateAll_removing rest]

end

theorem Payload.removing_removing (p : Payload Action) :
    (p.translate .removing).translate .removing = p.translate .removing := by
  cases p with
  | halt => rfl
  | act a => simp only [Payload.translate, Action.removing_removing]

theorem Sight.removing_removing (x : Sight) :
    (x.translate .removing).translate .removing = x.translate .removing := by
  cases x <;> simp only [Sight.translate, Payload.removing_removing, Action.removing_removing]

/-! ### Kernels without cancelled events -/

/-- The events that will run, in the order of their keys, with removals for cancellations. -/
def Kernel.liveEvents (k : Kernel Action) : List (Event (Payload Action)) :=
  (k.scheduler.sorted.filter fun e => decide (e.key.uid ∉ k.cancelled)).map
    (Event.map (Payload.translate .removing))

/-- The kernel without the cancelled events and with removals for cancellations, its events in an
ordered map. -/
def Kernel.pruned (k : Kernel Action) : Kernel Action :=
  k.translate .removing (.map ⟨k.liveEvents⟩) []

/-- The engine without cancelled events. -/
def Engine.pruned : Engine Action → Engine Action
  | .builtIn watched k => .builtIn watched k.pruned
  | .fixed k => .fixed k

variable {T : Target → Prop} {ids : KernelId → Prop} {k l : Kernel Action}

theorem Kernel.Renders.liveEvents_eq (m : k.Renders .removing T l) :
    l.liveEvents = k.liveEvents := by
  obtain ⟨-, hc, hs⟩ := m
  rename_i s c
  have hevent : Event.map (Payload.translate .removing) ∘ Event.map (Payload.translate .removing) =
      Event.map (Payload.translate .removing) := by
    funext e
    simp only [Function.comp, Event.map, Payload.removing_removing]
  have hkept (e : Event (Payload Action)) :
      (decide (e.key.uid ∉ c) && k.keeps c e) = decide (e.key.uid ∉ k.cancelled) := by
    rw [Kernel.keeps, Bool.eq_iff_iff, Bool.and_eq_true, decide_eq_true_iff, decide_eq_true_iff,
      decide_eq_true_iff]
    constructor
    · rintro ⟨hn, hi⟩ hm
      exact hn (hi hm)
    · intro hn
      exact ⟨fun hm => hn (hc.subset hm), fun hm => absurd hm hn⟩
  show (s.sorted.filter _).map _ = _
  rw [hs.sorted_eq, List.filter_map, List.map_map, hevent, List.filter_filter, Kernel.liveEvents]
  exact congrArg (List.map _) (List.filter_congr fun e _ => hkept e)

theorem Kernel.Renders.pruned_eq (m : k.Renders .removing T l) : l.pruned = k.pruned := by
  have hlive := m.liveEvents_eq
  obtain ⟨-, -, -⟩ := m
  rename_i s c
  have hteardowns : (k.teardowns.map (TeardownEvent.map (Action.translate .removing))).map
      (TeardownEvent.map (Action.translate .removing)) =
      k.teardowns.map (TeardownEvent.map (Action.translate .removing)) := by
    rw [List.map_map]
    refine List.map_congr_left fun e _ => ?_
    simp only [Function.comp, TeardownEvent.map, Action.removing_removing]
  unfold Kernel.pruned
  rw [hlive]
  simp only [Kernel.translate, hteardowns, Manner.removing_unstopped, Bool.not_false,
    Bool.true_and]

/-! ### What can be found out -/

/-- What can be found out of a world: its kernels, the cancelled events apart, and the handles. -/
structure Books where
  engines : List (Engine Action)
  handles : List (HandleName × Handle)

/-- What can be found out of a world. -/
def World.books (w : World) : Books := ⟨w.engines.map Engine.pruned, w.handles⟩

/-- What can be found out of a call: what happens in it and what can be found out then, its answer,
and what can be found out afterwards. -/
def Scene.findings (x : Scene) : List (Sight × Books) × Except Panic Reply × Books :=
  (x.seen.map fun y => (y.1.translate .removing, y.2.books), x.answer, x.after.books)

variable {w v : World}

theorem World.Renders.books_eq (h : w.Renders .removing T ids v) : v.books = w.books := by
  have hengines : v.engines.map Engine.pruned = w.engines.map Engine.pruned := by
    refine List.ext_getElem? fun id => ?_
    rw [List.getElem?_map, List.getElem?_map]
    show (v.engine? id).map _ = (w.engine? id).map _
    by_cases hid : ids id
    · obtain ⟨k, l, hwk, hvl, hk⟩ := h.kernels id hid
      rw [hwk, hvl]
      simp only [Option.map_some, Engine.pruned, hk.pruned_eq]
    · rw [h.others id hid]
  rw [World.books, World.books, hengines, h.handles]

theorem RendersScene.findings_eq {x y : Scene} (h : RendersScene .removing T ids x y) :
    y.findings = x.findings := by
  have hseen : y.seen.map (fun z => (z.1.translate .removing, z.2.books)) =
      x.seen.map fun z => (z.1.translate .removing, z.2.books) := by
    have hs := h.seen
    generalize x.seen = s at hs
    generalize y.seen = s' at hs
    induction hs with
    | nil => rfl
    | cons hx _ ih =>
      rw [List.map_cons, List.map_cons, ih, hx.sight, Sight.removing_removing, hx.world.books_eq]
  rw [Scene.findings, Scene.findings, hseen, h.answer, h.after.books_eq]

namespace World

variable {P Q : List Command}

/-- Fresh kernels carry out a program in any manner. -/
theorem Fresh.renders (hw : w.Fresh) :
    w.Renders .removing w.Hosts (fun id => id < w.engines.length) w where
  handles := rfl
  lasting := by
    rintro t ⟨n, id, k, rfl, -⟩
    exact ⟨nofun, nofun⟩
  targets := by
    rintro t ⟨n, id, k, -, hf, hk⟩
    exact ⟨id, (List.getElem?_eq_some_iff.1 hk).1, hf, hf⟩
  kernels := by
    intro id hid
    have hmem : w.engines[id] ∈ w.engines := List.getElem_mem hid
    obtain ⟨i, systemId, he⟩ := hw _ hmem
    have hk : w.engine? id = some (.builtIn false (.fresh i systemId)) := by
      rw [← he]
      exact List.getElem?_eq_getElem hid
    exact ⟨_, _, hk, hk, Kernel.renders_fresh i systemId⟩
  others := fun _ _ => rfl

/-- The program and the program with removals for cancellations are alike. -/
theorem Fresh.findings_removing (hw : w.Fresh) (s : w.Sound)
    (hP : ∀ x ∈ P, x.All (Command.Directed w.Hosts)) :
    (w.scenes (translateAll .removing P)).map Scene.findings = (w.scenes P).map Scene.findings := by
  have h := hw.renders.scenes s rfl hP
  generalize w.scenes P = l at h
  generalize w.scenes (translateAll .removing P) = l' at h
  induction h with
  | nil => rfl
  | cons hx _ ih => rw [List.map_cons, List.map_cons, ih, hx.findings_eq]

/-- **Cancelling is as good as removing.**  On fresh kernels, two programs that differ in nothing
but that some events are cancelled by the one and removed by the other, in actions as well as
outside, are alike in all that can be found out. -/
theorem scenes_congr (hw : w.Fresh) (s : w.Sound) (hP : ∀ x ∈ P, x.All (Command.Directed w.Hosts))
    (hQ : ∀ x ∈ Q, x.All (Command.Directed w.Hosts))
    (h : translateAll .removing P = translateAll .removing Q) :
    (w.scenes P).map Scene.findings = (w.scenes Q).map Scene.findings := by
  rw [← hw.findings_removing s hP, h, hw.findings_removing s hQ]

/-- Three events, the first of which drops the second and then asks for its handle and for a moment
after it. -/
def droppingProgram (drop : Target → HandleName → Command) : List Command :=
  let t : Target := .kernel (.numbered 0)
  let event (n : Nat) (body : List Command) : Command :=
    .schedule t (.after (.clamp n)) (.numbered n) (.mk (some "event") true t body)
  [event 1 [drop t (.numbered 2), .isExpired t (.numbered 2), .delayLeft t (.numbered 3)],
    event 2 [], event 3 [drop t (.numbered 2), .query t .isFinished], .run t]

/-- How many actions the kernels hold in the meantime. -/
def Scene.loads (x : Scene) : List Nat :=
  x.seen.map fun y => (y.2.engines.flatMap Engine.held).length

/-- The second event does not run, whether it is cancelled or removed; but the kernel holds it
longer if it is cancelled. -/
theorem scenes_congr_dropping :
    let cancelling := oneKernel.scenes (droppingProgram .cancel)
    let removing := oneKernel.scenes (droppingProgram .remove)
    cancelling.map Scene.findings = removing.map Scene.findings ∧
    cancelling.flatMap Scene.starts = [.clamp 1, .clamp 3] ∧
    cancelling.flatMap Scene.loads = [2, 2, 2, 2, 0, 0, 0] ∧
    removing.flatMap Scene.loads = [2, 1, 1, 1, 0, 0, 0] := by
  have hfresh : oneKernel.Fresh := fun e he => ⟨0, 0, List.mem_singleton.1 he⟩
  have hhosts : oneKernel.Hosts (.kernel (.numbered 0)) := ⟨0, 0, _, rfl, rfl, rfl⟩
  refine ⟨scenes_congr hfresh sound_oneKernel ?_ ?_ ?_, by decide +kernel, by decide +kernel,
    by decide +kernel⟩
  · simp [droppingProgram, Command.All, Action.All, allOf, Command.Directed, Action.Minds,
      Action.target, hhosts]
  · simp [droppingProgram, Command.All, Action.All, allOf, Command.Directed, Action.Minds,
      Action.target, hhosts]
  · simp [droppingProgram, translateAll, Command.translate, Action.translate]

end World

end EventSim
