import EventSim.Proofs.Backends.Independence
import EventSim.Proofs.Sessions.Stopping

/-!
# Stopping a run and taking it up again

A run that is asked to stop ends after the present event.  `World.interruption`: **nothing is lost
by it**.  All events that were to run still are, and whoever runs a kernel again and again until it
has finished sees event by event what is to be seen of a single run that nobody stops, and finds the
same present and the same number of events in the end.

In the run that nobody stops, a scheduled stop is an event that does nothing, and other requests are
not made, `Manner.undisturbed`.  Until a run ends because of a stop, the undisturbed one keeps up
with it, `Paired.advance`; then the one kernel is run again, and the other one goes on as if it
were.
-/

namespace EventSim

/-- Nobody asks a run loop to stop. -/
def Manner.undisturbed : Manner where
  target := id
  eager := false
  unstopped := true

namespace World

variable {T : Target → Prop} {ids : KernelId → Prop} {w w' v v' : World} {id : KernelId}
  {t : Target} {k l : Kernel Action}

/-- The world after calls from outside. -/
def after (w : World) (P : List Command) : World := P.foldl (fun w x => (w.call x).2) w

/-- It takes `n` runs until the kernel of the target has finished, and they all end well.  What is
seen of them, one after the other, is what is seen of the one call of the machine `m`, which nobody
asks to stop.  The context apart, the kernel answers all questions alike in the end. -/
structure Completes (w : World) (t : Target) (n : Nat) (m : Machine) : Prop where
  unfinished : ∀ i < n,
    ((w.after (.replicate i (.run t))).ask t .isFinished).1 = .ok (.flag false)
  finished : ((w.after (.replicate n (.run t))).ask t .isFinished).1 = .ok (.flag true)
  answers : ∀ x ∈ w.scenes (.replicate n (.run t)), x.answer = .ok .done
  result : m.run.result = some (.ok .done)
  seen : m.seen.map Prod.fst =
    (((w.scenes (.replicate n (.run t))).flatMap Scene.seen).map Prod.fst).map
      (Sight.translate .undisturbed)
  asked : ∀ q, q ≠ .context →
    (m.run.world.ask t q).1 = ((w.after (.replicate n (.run t))).ask t q).1

/-! ### One run -/

theorem find_of_named (ht : t ≠ .facade) (h : w'.named = w.named) : w'.find t = w.find t := by
  cases t with
  | facade => exact absurd rfl ht
  | kernel name => simp only [find, World.lookup, countNumbered, h]

theorem ofCall_run (hw : w.find t = .ok (some id)) (hk : w.engine? id = some (.builtIn false k)) :
    Machine.ofCall w (.run t) =
      ⟨w.setEngine id (.builtIn false k.beginRun), [.running id], none⟩ := by
  simp only [Machine.ofCall, Machine.start, reach_of_find hw, Machine.beginRun, hk]

/-- The target is the kernel `id`; `v` carries out undisturbed what `w` carries out, and no action
panics or runs a kernel. -/
structure Paired (T : Target → Prop) (ids : KernelId → Prop) (t : Target) (id : KernelId)
    (w v : World) : Prop where
  renders : w.Renders .undisturbed T ids v
  sound : w.Sound
  steady : w.Holds (Action.All Command.Steady)
  outside : ¬ T .facade
  directed : T t
  hosted : ids id
  found : w.find t = .ok (some id)

namespace Paired

variable (h : Paired T ids t id w v)

include h

theorem target_ne : t ≠ .facade := by
  rintro rfl
  exact h.outside h.directed

theorem found_undisturbed : v.find t = .ok (some id) := by
  obtain ⟨_, -, hw, hv⟩ := h.renders.targets t h.directed
  rw [h.found] at hw
  cases hw
  exact hv

theorem amid_ofCall : (Machine.ofCall w (.run t)).Amid id w.named := by
  obtain ⟨k, l, hk, -, -⟩ := h.renders.kernels id h.hosted
  rw [ofCall_run h.found hk]
  refine ⟨⟨Machine.bottom_running id, rfl, rfl⟩, h.sound.did hk (.began k) trivial, ?_, ?_⟩
  · exact h.steady.did hk (.began k) fun a ha => by cases ha
  · exact List.forall_mem_singleton.2 trivial

/-- The undisturbed kernel is in the middle of its run when the other one is run again. -/
theorem renders_ofCall : (Machine.ofCall w (.run t)).Renders .undisturbed T ids
    ⟨v, [.running id], none⟩ := by
  obtain ⟨k, l, hwk, hvl, hk⟩ := h.renders.kernels id h.hosted
  have hworld := h.renders.setEngine h.hosted (hk.beginRun_apart rfl)
  rw [setEngine_of_engine? hvl] at hworld
  rw [ofCall_run h.found hwk]
  exact ⟨hworld, .cons (.running h.hosted) .nil, rfl⟩

/-- The kernel is finished, and what is left of the undisturbed run is not seen. -/
theorem completes_of_isFinished (hk : w.engine? id = some (.builtIn false k))
    (hf : k.isFinished = true) : w.Completes t 0 ⟨v, [.running id], none⟩ := by
  obtain ⟨_, l, hwk, hvl, hkl⟩ := h.renders.kernels id h.hosted
  rw [hk] at hwk
  cases hwk
  have hv' := h.found_undisturbed
  obtain ⟨v', l', hsees, hvl', hfind, hanswer⟩ :=
    Machine.sees_drained hvl (hkl.sound (h.sound.kernels hk)) (hkl.isFinished_eq.trans hf)
  obtain ⟨hseen, hrun⟩ := hsees.ends rfl
  refine ⟨fun i hi => absurd hi (Nat.not_lt_zero i), ?_, fun x hx => ?_, ?_, ?_, fun q hq => ?_⟩
  · show (w.ask t .isFinished).1 = _
    rw [ask_eq h.found hk, answer, Engine.isFinished, hf]
  · cases hx
  · rw [hrun]
  · rw [hseen]
    rfl
  · rw [hrun]
    show (v'.ask t q).1 = (w.ask t q).1
    rw [← (RendersEnd.ask h.renders h.directed q).reply,
      ask_eq ((hfind t).trans hv') hvl', hanswer q hq]
    exact (congrArg Prod.fst (ask_eq hv' hvl q)).symm

/-- **One run of a kernel that has not finished.**  The undisturbed run comes as far; what is left
of it is what will be seen when the kernel is run again. -/
theorem advance (hk : w.engine? id = some (.builtIn false k)) (hf : k.isFinished = false) :
    ∃ w' v', w.call (.run t) = (.ok .done, w') ∧ Paired T ids t id w' v' ∧ w'.weight < w.weight ∧
      (Machine.seen ⟨v, [.running id], none⟩).map Prod.fst =
        ((w.scene (.run t)).seen.map Prod.fst).map (Sight.translate .undisturbed) ++
          (Machine.seen ⟨v', [.running id], none⟩).map Prod.fst ∧
      Machine.run ⟨v, [.running id], none⟩ = Machine.run ⟨v', [.running id], none⟩ := by
  have hstart := ofCall_run h.found hk
  obtain ⟨s, m, s', n, hm, hn, hs, hr, ha, he⟩ := h.amid_ofCall.run h.renders_ofCall h.outside
  obtain ⟨k₁, hk₁, hend⟩ := he.sees
  obtain ⟨hseen, hrun⟩ := (hm.trans hend).ends rfl
  obtain ⟨k', l₁, hk', hl₁, hkl⟩ := hr.world.kernels id h.hosted
  rw [hk₁] at hk'
  cases hk'
  have hn' : n = ⟨n.world, [.running id], none⟩ := by
    obtain ⟨u, stack, result⟩ := n
    obtain ⟨-, hstack, hresult⟩ := hr
    rw [he.stack] at hstack
    obtain ⟨g, rest, hg, hnil, rfl⟩ := List.forall₂_cons_left_iff.1 hstack
    cases hnil
    cases hg
    rw [show result = none from hresult.trans ha.result]
  obtain ⟨hseenv, hrunv⟩ := hn.seen_eq
  obtain ⟨hseenn, hrunn⟩ :=
    Machine.seen_endRun hl₁ (hkl.sound (ha.sound.kernels hk₁))
  rw [← hn'] at hseenn hrunn
  refine ⟨m.world.setEngine id (.builtIn false k₁.endRun),
    n.world.setEngine id (.builtIn false l₁.endRun), ?_, ?_, ?_, ?_, hrunv.trans hrunn⟩
  · simp only [call, hrun]
    rfl
  · have hsteady := ha.steady.stored.did hk₁ (.ended k₁) fun a ha => by cases ha
    exact ⟨hr.world.setEngine h.hosted hkl.endRun, ha.sound.did hk₁ (.ended k₁) trivial, hsteady,
      h.outside, h.directed, h.hosted, (find_of_named h.target_ne ha.named).trans h.found⟩
  · -- the run loop was not idle, so the run has taken a step
    have hne : Machine.ofCall w (.run t) ≠ m := by
      rintro rfl
      obtain ⟨-, k₂, hk₂, hidle⟩ := he
      rw [hstart, engine?_setEngine_self hk] at hk₂
      cases hk₂
      exact ((h.sound.kernels hk).does (.began k) trivial).dequeue_ne_idle rfl hf hidle
    have hlt := hm.weight_lt hne
    rw [hstart, Machine.weight, Machine.weight, he.stack] at hlt
    have hbegun : (w.setEngine id (.builtIn false k.beginRun)).weight = w.weight :=
      weight_setEngine_of_eq hk rfl
    have hended : (m.world.setEngine id (.builtIn false k₁.endRun)).weight = m.world.weight :=
      weight_setEngine_of_eq hk₁ rfl
    rw [hended, ← hbegun]
    exact Nat.lt_of_add_lt_add_right hlt
  · rw [List.append_nil] at hseen
    rw [hseenv, List.map_append, map_sights hs, hseenn]
    show _ = ((Machine.ofCall w (.run t)).seen.map Prod.fst).map _ ++ _
    rw [hseen]

end Paired

/-! ### Runs until the kernel has finished -/

/-- **The kernel finishes after some runs**, all in all what an undisturbed run is. -/
theorem Paired.completes (h : Paired T ids t id w v) :
    ∃ n, w.Completes t n ⟨v, [.running id], none⟩ := by
  induction hi : w.weight using Nat.strongRecOn generalizing w v with
  | ind i ih =>
    obtain ⟨k, -, hk, -, -⟩ := h.renders.kernels id h.hosted
    cases hf : k.isFinished with
    | true => exact ⟨0, h.completes_of_isFinished hk hf⟩
    | false =>
      obtain ⟨w', v', hcall, h', hlt, hseen, hrun⟩ := h.advance hk hf
      obtain ⟨n, hunfinished, hfinished, hanswers, hresult, hseen', hasked⟩ :=
        ih _ (hi ▸ hlt) h' rfl
      have hafter (j : Nat) : w.after (.replicate (j + 1) (.run t)) =
          w'.after (.replicate j (.run t)) := by
        rw [List.replicate_succ, after, List.foldl_cons, hcall]
        rfl
      have hscenes : w.scenes (.replicate (n + 1) (.run t)) =
          w.scene (.run t) :: w'.scenes (.replicate n (.run t)) := by
        rw [List.replicate_succ, scenes, hcall]
      refine ⟨n + 1, fun j hj => ?_, ?_, ?_, ?_, ?_, fun q hq => ?_⟩
      · cases j with
        | zero =>
          show (w.ask t .isFinished).1 = _
          rw [ask_eq h.found hk, answer, Engine.isFinished, hf]
        | succ j =>
          rw [hafter]
          exact hunfinished j (Nat.lt_of_succ_lt_succ hj)
      · rw [hafter]
        exact hfinished
      · rw [hscenes]
        refine List.forall_mem_cons.2 ⟨?_, hanswers⟩
        rw [scene, hcall]
      · rw [hrun]
        exact hresult
      · rw [hscenes, hseen, hseen', List.flatMap_cons, List.map_append, List.map_append]
      · rw [hafter, hrun]
        exact hasked q hq

/-- **Stopping loses nothing, and a run can be taken up again.**  As soon as a kernel is asked to
stop while an event executes, be it by an action or by a scheduled stop, no event starts any more in
this run, and all events that were to run still are afterwards, unless they were withdrawn.  And to
run the kernel until it has finished comes to the same as to run it once while nobody asks it to
stop: the same happens, one thing after the other, and the kernel answers alike in the end. -/
theorem interruption (s : w.Sound) (hq : w.Holds (Action.Directed w.Hosts))
    (hs : w.Holds (Action.All Command.Steady)) (ht : w.Hosts t)
    (hw : w.find t = .ok (some id)) :
    (∀ l m k, (Machine.ofCall w (.run t)).Sees l m → m.askedToStop? id = some k →
      m.step.Halts id k) ∧
    ∃ n, w.Completes t n (Machine.ofCall (w.translate .undisturbed) (.run t)) := by
  obtain ⟨_, _, k, hname, hw', hk⟩ := ht
  rw [hw] at hw'
  cases hw'
  have hout : ¬ w.Hosts .facade := by
    rintro ⟨_, _, _, hname, -⟩
    cases hname
  have h : Paired w.Hosts (fun id => ∃ k, w.engine? id = some (.builtIn false k)) t id w
      (w.translate .undisturbed) :=
    ⟨renders_translate s hq fun _ => rfl, s, hs, hout, ⟨_, id, k, hname, hw, hk⟩, ⟨k, hk⟩, hw⟩
  constructor
  · intro l m k' hsees hm
    have hne : m.stack ≠ [] := by
      intro hs
      rw [Machine.askedToStop?, hs] at hm
      cases hm
    obtain ⟨ha, n, hr⟩ := h.amid_ofCall.sees h.renders_ofCall hout hsees hne
    exact ha.halts_of_askedToStop hr hout hm
  · obtain ⟨n, hn⟩ := h.completes
    obtain ⟨_, l, -, hvl, hkl⟩ := h.renders.kernels id h.hosted
    have hstart : Machine.ofCall (w.translate .undisturbed) (.run t) =
        ⟨w.translate .undisturbed, [.running id], none⟩ := by
      rw [ofCall_run h.found_undisturbed hvl, hkl.beginRun_eq rfl, setEngine_of_engine? hvl]
    exact ⟨n, hstart ▸ hn⟩

/-- An event that schedules four others, one of them a stop, takes one of them back and stops. -/
def restlessAction : Action :=
  let t : Target := .kernel (.numbered 0)
  let event (n : Nat) : Command :=
    .schedule t (.after (.clamp n)) (.numbered n) (.mk (some "event") true t [])
  .mk (some "first") true t [event 1, .stopAfter t (.clamp 2) (.numbered 2), event 3, event 4,
    .cancel t (.numbered 4), .stop t, .query t .now]

/-- A kernel that stores an event which stops. -/
def restless : World :=
  (oneKernel.perform (.schedule (.kernel (.numbered 0)) (.after (.clamp 1)) (.numbered 0)
    restlessAction)).2

/-- The action asks for a stop while three events are to run. -/
theorem interruption_restless :
    let t : Target := .kernel (.numbered 0)
    (∃ l m k, (Machine.ofCall restless (.run t)).Sees l m ∧ m.askedToStop? 0 = some k ∧
      m.step.Halts 0 k ∧ k.pending.length = 3) ∧
    (∃ n, restless.Completes t n (Machine.ofCall (restless.translate .undisturbed) (.run t))) ∧
    (restless.scenes (.replicate 3 (.run t))).map Scene.starts =
      [[.clamp 1], [.clamp 2, .clamp 3], [.clamp 4]] ∧
    ((restless.translate .undisturbed).scene (.run t)).starts =
      [.clamp 1, .clamp 2, .clamp 3, .clamp 4] := by
  have hhosts : restless.Hosts (.kernel (.numbered 0)) := ⟨0, 0, _, rfl, rfl, rfl⟩
  have hsound : restless.Sound := by
    refine sound_oneKernel.perform ?_
    exact trivial
  have hnone (q : Action → Prop) : oneKernel.Holds q := by
    intro id watched k hk a ha
    cases id with
    | zero =>
      cases hk
      cases ha
    | succ id => cases hk
  have hdirected : restless.Holds (Action.Directed restless.Hosts) := by
    refine Machine.holds_perform (hnone _) fun a ha => ?_
    cases ha
    simp [restlessAction, Action.Directed, Action.Minds, Action.All, allOf, Command.All,
      Command.Directed, Action.target, hhosts]
  have hsteady : restless.Holds (Action.All Command.Steady) := by
    refine Machine.holds_perform (hnone _) fun a ha => ?_
    cases ha
    simp [restlessAction, Action.All, allOf, Command.All, Command.Steady]
  obtain ⟨hstop, hruns⟩ := interruption hsound hdirected hsteady hhosts rfl
  refine ⟨?_, hruns, by decide +kernel, by decide +kernel⟩
  have hsees := Machine.sees_steps 6 (.ofCall restless (.run (.kernel (.numbered 0))))
  have hasked : ((Machine.steps 6 (.ofCall restless (.run (.kernel (.numbered 0))))).askedToStop?
      0).map (fun k => k.pending.length) = some 3 := by decide +kernel
  obtain ⟨k, hk, hlength⟩ := Option.map_eq_some_iff.1 hasked
  exact ⟨_, _, k, hsees, hk, hstop _ _ _ hsees hk, hlength⟩

end World

end EventSim
