import EventSim.Proofs.Facade.Procedures
import EventSim.Proofs.Machine.Steps
import EventSim.Proofs.World.Settings
import EventSim.Proofs.World.Unbuildable

/-!
# Lifecycle calls that fail

Handing a kernel over is refused if the configured scheduler is not registered or the slot is taken,
choosing a scheduler by its name if it is not registered.  Any call that asks the facade for its
kernel panics if none can be built.  **When one of these calls fails, everything is as it was
before, and no factory has been called** (`World.failures_leave_no_trace`): a kernel that was handed
over has its own scheduler and events still, and so has the one in the slot.
-/

namespace EventSim

namespace Machine

variable {w v : World} {s : List Frame} {r : Option (Except Panic Reply)} {p : Panic}
  {e : SimError}

/-- The outermost call has ended in a panic. -/
def PanickedWith (m : Machine) (p : Panic) : Prop := m.stack = [] ∧ m.result = some (.error p)

theorem panickedWith_panic_iff {p' : Panic} : (panic ⟨w, s, r⟩ p').PanickedWith p ↔ p' = p := by
  simp only [PanickedWith, panic, Option.some.injEq, Except.error.injEq, true_and]

theorem not_panickedWith_deliver (x : Reply) : ¬ (deliver ⟨w, s, r⟩ x).PanickedWith p := by
  unfold deliver
  split
  · exact fun h => by cases h.2
  · exact fun h => by cases h.1
  · dsimp only
    split <;> exact fun h => by cases h.1
  · rename_i hs _ _
    exact fun h => hs h.1

theorem not_panickedWith_beginRun (id : KernelId) : ¬ (beginRun ⟨w, s, r⟩ id).PanickedWith p := by
  unfold beginRun
  split
  · exact fun h => by cases h.1
  · exact not_panickedWith_deliver _

theorem not_panickedWith_beginDestroy (id : KernelId) :
    ¬ (beginDestroy ⟨w, s, r⟩ id).PanickedWith p := by
  unfold beginDestroy
  split
  · exact fun h => by cases h.1
  · exact not_panickedWith_deliver _

theorem not_panickedWith_beginTeardown : ¬ (beginTeardown ⟨w, s, r⟩).PanickedWith p := by
  unfold beginTeardown
  split
  · exact not_panickedWith_deliver _
  · exact not_panickedWith_beginDestroy _

/-- **A call panics about a kernel that could not be built exactly if it needs one and none can be
built.** -/
theorem panickedWith_start_iff (c : Command) :
    (start ⟨w, s, r⟩ c).PanickedWith (.construction e) ↔ w.Unbuildable e ∧ c.Needs w := by
  cases hd : c.drives with
  | false =>
    rw [start_of_not_drives hd, ← (w.hinges_perform hd).fails_iff]
    generalize w.perform c = y
    obtain ⟨y, v⟩ := y
    cases y with
    | ok x => exact iff_of_false (not_panickedWith_deliver x) fun h => by cases h
    | error p => rw [panickedWith_panic_iff, Except.error.injEq]
  | true =>
    cases c with
    | run t =>
      rw [start, Command.Needs, ← World.reach_eq_error_iff]
      dsimp only
      cases w.reach t with
      | ok z => exact iff_of_false (not_panickedWith_beginRun _) fun h => by cases h
      | error p => rw [panickedWith_panic_iff, Except.error.injEq]
    | destroy t =>
      rw [start, Command.Needs, ← World.reach_eq_error_iff]
      dsimp only
      cases w.reach t with
      | ok z => exact iff_of_false (not_panickedWith_beginDestroy _) fun h => by cases h
      | error p => rw [panickedWith_panic_iff, Except.error.injEq]
    | teardown => exact iff_of_false not_panickedWith_beginTeardown fun h => h.2
    | scenario request =>
      refine iff_of_false ?_ fun h => h.2
      rw [start]
      split
      · exact not_panickedWith_deliver _
      · exact not_panickedWith_beginTeardown
    | _ => cases hd

/-- It leaves nothing behind but the action that it gives up. -/
theorem world_start (c : Command) (h : (start ⟨w, s, r⟩ c).PanickedWith (.construction e)) :
    (start ⟨w, s, r⟩ c).world = (w.releaseAll c.offered).forgetInjected := by
  obtain ⟨hu, hn⟩ := (panickedWith_start_iff c).1 h
  cases hd : c.drives with
  | false =>
    have hl := (w.hinges_perform hd).leaves e hu hn
    have hf := ((w.hinges_perform hd).fails_iff e).2 ⟨hu, hn⟩
    rw [start_of_not_drives hd]
    generalize w.perform c = y at hl hf ⊢
    obtain ⟨y, v⟩ := y
    cases hf
    cases hl
    rfl
  | true =>
    cases c with
    | run t =>
      rw [start, World.reach_eq_error_iff.2 ⟨hu, hn⟩]
      rfl
    | destroy t =>
      rw [start, World.reach_eq_error_iff.2 ⟨hu, hn⟩]
      rfl
    | teardown => exact hn.elim
    | scenario request => exact hn.elim
    | _ => cases hd

/-- An action that is told of asks its target for the present before it does anything. -/
theorem panickedWith_startAction_iff (a : Action) :
    (startAction ⟨w, s, r⟩ a).PanickedWith (.construction e) ↔
      w.Unbuildable e ∧ a.target = .facade ∧ a.tag.isSome := by
  unfold startAction
  cases a.tag with
  | none => exact iff_of_false (fun h => by cases h.1) fun h => by cases h.2.2
  | some tag =>
    simp only [Option.isSome_some, and_true, ← World.reach_eq_error_iff, World.nowOf]
    cases hr : w.reach a.target with
    | error p => rw [panickedWith_panic_iff, Except.error.injEq]
    | ok z =>
      -- the kernel that was told the time of is there for the context, too
      have hb := World.built_contextOf (World.provided_of_reach hr).built
      dsimp only
      refine iff_of_false ?_ fun h => by cases h
      split
      · rename_i p hp
        rw [panickedWith_panic_iff]
        exact fun h => hb e (h ▸ hp)
      · exact fun h => by cases h.1

theorem world_startAction (a : Action)
    (h : (startAction ⟨w, s, r⟩ a).PanickedWith (.construction e)) :
    (startAction ⟨w, s, r⟩ a).world = w.forgetInjected := by
  obtain ⟨hu, ht, htag⟩ := (panickedWith_startAction_iff a).1 h
  obtain ⟨tag, htag⟩ := Option.isSome_iff_exists.1 htag
  rw [startAction, htag, World.nowOf, World.reach_eq_error_iff.2 ⟨hu, ht⟩]
  rfl

end Machine

namespace World

open Procedure

variable {w v x : World} {e : SimError} {id : KernelId} {name : String} {source : KernelSource}
  {l : List FactoryCall}

/-! ### What a failure leaves -/

/-- The slot, the kernels with their schedulers, events and clocks, the saved handles, the printers,
the configuration, the registry and the trace are as they were. -/
structure Untouched (w v : World) : Prop where
  slot : v.slot = w.slot
  kernels : ∀ id k, w.engine? id = some k → v.engine? id = some k
  handles : v.handles = w.handles
  printers : v.printers = w.printers
  settings : v.settings = w.settings

theorem untouched_make (w : World) (spec : KernelSpec) : w.Untouched (w.make spec).2 where
  slot := slot_make w spec
  kernels id k hk := by
    have hlt := (List.getElem?_eq_some_iff.1 hk).1
    cases spec <;> exact (List.getElem?_append_left hlt).trans hk
  handles := by cases spec <;> rfl
  printers := by cases spec <;> rfl
  settings := settings_make w spec

theorem untouched_offer (h : w.offer source = .ok (id, v)) : w.Untouched v := by
  cases source with
  | held name =>
    unfold offer at h
    dsimp only at h
    split at h <;> cases h
    exact ⟨rfl, fun _ _ hk => hk, rfl, rfl, rfl⟩
  | fresh spec =>
    cases h
    exact w.untouched_make spec

/-- Actions are given up, and the name of a kernel that a scenario handed over is forgotten. -/
theorem untouched_abandoned (w : World) (l : List Action) :
    w.Untouched (w.releaseAll l).forgetInjected where
  slot := (w.aside_releaseAll l).slot
  kernels id _ hk := (congrArg (·[id]?) (w.aside_releaseAll l).engines).trans hk
  handles := (w.aside_releaseAll l).handles
  printers := (w.aside_releaseAll l).printers
  settings := w.settings_releaseAll l

/-- The procedure fails, and has called no factory and left the world as it was. -/
def FailsCleanly {α : Type} (w : World) (y : Procedure α) (h : Hindrance) : Prop :=
  y.run ⟨w, []⟩ = .error h ⟨w, []⟩

theorem failsCleanly_of_spotless {α : Type} {y : Procedure α} {h : Hindrance} {u : Underway}
    (hy : Spotless y) (hu : y.run ⟨w, []⟩ = .error h u) : w.FailsCleanly y h := by
  cases hy _ _ _ hu
  exact hu

/-- A call is refused by the failure of what it does, which is then clean. -/
theorem answered_eq_refused_iff {y : Procedure Unit} (hy : Spotless y) :
    answered (y.run ⟨w, []⟩) = (.ok (.refused e), x) ↔ w.FailsCleanly y (.refusal e) ∧ x = w := by
  constructor
  · intro h
    cases hr : y.run ⟨w, []⟩ with
    | ok a u =>
      rw [hr] at h
      cases h
    | error g u =>
      cases hy _ _ _ hr
      rw [hr] at h
      cases g with
      | panic p => cases h
      | refusal e' =>
        cases h
        exact ⟨hr, rfl⟩
  · rintro ⟨h, rfl⟩
    rw [h]
    rfl

/-! ### Refusals -/

/-- A kernel that is handed over is refused: the configured scheduler is not registered, or it is
and the slot is taken. -/
def RefusesKernel (w : World) (e : SimError) : Prop :=
  ∃ c, w.config = .ok c ∧
    match w.registry.schedulers.find? c.schedulerType with
    | none => e = .unknownScheduler c.schedulerType
    | some _ => w.slot.isSome ∧ e = .kernelPresent

theorem failsCleanly_handing_iff (id : KernelId) :
    w.FailsCleanly (handing id) (.refusal e) ↔ w.RefusesKernel e := by
  unfold FailsCleanly RefusesKernel handing
  rw [run_bind, run_readConfig]
  dsimp only
  cases w.config with
  | error p => simp only [EStateM.Result.error.injEq, reduceCtorEq, false_and, exists_false]
  | ok c =>
    simp only [run_bind, run_find, Registry.scheduler, Except.ok.injEq, exists_eq_left']
    cases w.registry.schedulers.find? c.schedulerType with
    | none => simp only [EStateM.Result.error.injEq, Hindrance.refusal.injEq, and_true, eq_comm]
    | some b =>
      simp only [run_claim]
      cases w.slot with
      | none => exact iff_of_false (fun h => by cases h) fun h => by cases h.1
      | some occupant =>
        simp only [EStateM.Result.error.injEq, Hindrance.refusal.injEq, and_true,
          Option.isSome_some, true_and, eq_comm]

theorem failsCleanly_choosing_iff :
    w.FailsCleanly (choosing name) (.refusal e) ↔
      w.registry.schedulers.find? name = none ∧ e = .unknownScheduler name := by
  unfold FailsCleanly choosing
  simp only [run_bind, run_find, Registry.scheduler]
  cases w.registry.schedulers.find? name with
  | none =>
    simp only [EStateM.Result.error.injEq, Hindrance.refusal.injEq, and_true, true_and, eq_comm]
  | some b =>
    refine iff_of_false (fun h => ?_) fun h => by cases h.1
    obtain ⟨p, hp⟩ := panic_of_attaching h
    cases hp

/-- Nothing but the configuration and the registry are looked at before the panic about a kernel
that cannot be built. -/
theorem failsCleanly_resolving_iff :
    w.FailsCleanly resolving (.panic (.construction e)) ↔ w.Unbuildable e := by
  have hreach := w.reach_eq_error_iff (t := .facade) (e := e)
  rw [show w.reach .facade = w.resolve from rfl, w.resolve_eq []] at hreach
  rw [← (and_iff_left rfl : _ ∧ Target.facade = .facade ↔ w.Unbuildable e), ← hreach]
  constructor
  · intro h
    rw [show resolving.run ⟨w, []⟩ = _ from h]
    rfl
  · intro h
    split at h
    · cases h
    · rename_i hr
      obtain ⟨p, rfl⟩ := panic_of_resolving hr
      cases h
      exact failsCleanly_of_spotless spotless_resolving hr

/-- The scheduler that the kernel is to have is not made before there is a kernel. -/
theorem failsCleanly_attaching_iff (b : Backend) :
    w.FailsCleanly (attaching b) (.panic (.construction e)) ↔ w.Unbuildable e := by
  rw [← failsCleanly_resolving_iff]
  unfold FailsCleanly attaching
  rw [run_bind]
  cases resolving.run ⟨w, []⟩ with
  | ok id u => exact iff_of_false (fun h => by cases h) fun h => by cases h
  | error h u => simp only [EStateM.Result.error.injEq]

/-- Nor is one that was chosen by its name, which has been looked up then. -/
theorem failsCleanly_choosing_panic_iff :
    w.FailsCleanly (choosing name) (.panic (.construction e)) ↔
      w.Unbuildable e ∧ (w.registry.schedulers.find? name).isSome := by
  unfold choosing FailsCleanly
  rw [run_bind, run_find]
  unfold Registry.scheduler
  cases w.registry.schedulers.find? name with
  | none => exact iff_of_false (fun h => by cases h) fun h => by cases h.2
  | some b => exact (failsCleanly_attaching_iff b).trans (and_iff_left rfl).symm

/-- A panic about a kernel that could not be built has been found out by looking alone, and has left
nothing behind but actions that were given up. -/
structure LeavesNoTrace (w : World) (e : SimError) (l : List Action) (m : Machine) : Prop where
  clean : w.FailsCleanly resolving (.panic (.construction e))
  untouched : w.Untouched m.world
  world : m.world = (w.releaseAll l).forgetInjected

theorem leavesNoTrace {m : Machine} {l : List Action} (hu : w.Unbuildable e)
    (hw : m.world = (w.releaseAll l).forgetInjected) : w.LeavesNoTrace e l m where
  clean := failsCleanly_resolving_iff.2 hu
  untouched := hw ▸ w.untouched_abandoned l
  world := hw

/-- **Lifecycle calls that fail change nothing and call no factory.**

* A kernel that is handed over is refused if the configured scheduler is not registered or the slot
  is taken.  Offering it has touched nothing, and the refusal leaves the world as it is then, with
  the kernel that was offered in it.
* Choosing a scheduler by its name is refused if it is not registered, and leaves the world as it
  is.
* Choosing one that is registered, and giving the kernel another scheduler, panic if no kernel can
  be built, and the scheduler has not been made then.
* Any call that needs the kernel of the facade panics if none can be built, and so does an action
  that is told of when it starts.

The procedures that are said to fail are what the calls do. -/
theorem failures_leave_no_trace (w : World) :
    (∀ source id v, w.offer source = .ok (id, v) → w.Untouched v ∧
      w.perform (.install source) = answered ((handing id).run ⟨v, []⟩) ∧
      ∀ e x, w.perform (.install source) = (.ok (.refused e), x) ↔
        v.RefusesKernel e ∧ v.FailsCleanly (handing id) (.refusal e) ∧ x = v) ∧
    (∀ name, w.perform (.attachNamed name) = answered ((choosing name).run ⟨w, []⟩) ∧
      (∀ e x, w.perform (.attachNamed name) = (.ok (.refused e), x) ↔
        (w.registry.schedulers.find? name = none ∧ e = .unknownScheduler name) ∧
          w.FailsCleanly (choosing name) (.refusal e) ∧ x = w) ∧
      ∀ s r e, (Machine.start ⟨w, s, r⟩ (.attachNamed name)).PanickedWith (.construction e) ↔
        w.FailsCleanly (choosing name) (.panic (.construction e))) ∧
    (∀ b, w.perform (.attach .facade b) = answered ((attaching b).run ⟨w, []⟩) ∧
      ∀ s r e, (Machine.start ⟨w, s, r⟩ (.attach .facade b)).PanickedWith (.construction e) ↔
        w.FailsCleanly (attaching b) (.panic (.construction e))) ∧
    (∀ s r c e, ((Machine.start ⟨w, s, r⟩ c).PanickedWith (.construction e) ↔
        w.Unbuildable e ∧ c.Needs w) ∧
      ((Machine.start ⟨w, s, r⟩ c).PanickedWith (.construction e) →
        w.LeavesNoTrace e c.offered (Machine.start ⟨w, s, r⟩ c))) ∧
    ∀ s r a e, ((Machine.startAction ⟨w, s, r⟩ a).PanickedWith (.construction e) ↔
        w.Unbuildable e ∧ a.target = .facade ∧ a.tag.isSome) ∧
      ((Machine.startAction ⟨w, s, r⟩ a).PanickedWith (.construction e) →
        w.LeavesNoTrace e [] (Machine.startAction ⟨w, s, r⟩ a)) := by
  refine ⟨fun source id v h => ⟨untouched_offer h, installFrom_eq h [], fun e x => ?_⟩,
    fun name => ⟨w.attachNamed_eq name [], fun e x => ?_, fun s r e => ?_⟩,
    fun b => ⟨w.attachFacade_eq b [], fun s r e => ?_⟩,
    fun s r c e => ⟨Machine.panickedWith_start_iff c, fun h => ?_⟩,
    fun s r a e => ⟨Machine.panickedWith_startAction_iff a, fun h => ?_⟩⟩
  · rw [← failsCleanly_handing_iff id, and_self_left,
      ← answered_eq_refused_iff (spotless_handing id), ← installFrom_eq h]
    rfl
  · rw [← failsCleanly_choosing_iff, and_self_left,
      ← answered_eq_refused_iff (spotless_choosing name), ← attachNamed_eq]
  · rw [failsCleanly_choosing_panic_iff]
    exact Machine.panickedWith_start_iff _
  · rw [failsCleanly_attaching_iff]
    exact (Machine.panickedWith_start_iff _).trans (and_iff_left rfl)
  · exact leavesNoTrace ((Machine.panickedWith_start_iff c).1 h).1 (Machine.world_start c h)
  · exact leavesNoTrace ((Machine.panickedWith_startAction_iff a).1 h).1
      (Machine.world_startAction a h)

/-- Two kernels with an event each; the first one is watched, and the program has a name for the
second one. -/
def contested (slot : Option KernelId) (scheduler : String) : World :=
  let kernel (id : KernelId) : Kernel Action :=
    ((Kernel.fresh id 0).store (.clamp 5) noContext (.act (.silent []))).2
  { pristine none with
    engines := [.builtIn true (kernel 0), .builtIn false (kernel 1)]
    slot := slot
    named := [(.numbered 1, 1)]
    written := some ⟨Config.builtInKernel, scheduler⟩
    printers := .standard }

/-- A taken slot, a configured scheduler that is not registered, a name that is not registered, and
an event, a name and a scheduler for which no kernel can be built. -/
theorem failures_leave_no_trace_contested :
    let taken := contested (some 0) Config.heapScheduler
    let misnamed := contested (some 0) "tempo::Nope"
    let vacant := contested none "tempo::Nope"
    let unknown := SimError.unknownScheduler "tempo::Nope"
    let late : Command :=
      .schedule .facade .immediately (.word "late") (.mk (some "late") false .facade [])
    taken.perform (.install (.held (.numbered 1))) = (.ok (.refused .kernelPresent), taken) ∧
      misnamed.perform (.install (.fresh (.watched 3))) =
        (.ok (.refused unknown), (misnamed.make (.watched 3)).2) ∧
      misnamed.Untouched (misnamed.make (.watched 3)).2 ∧
      taken.perform (.attachNamed "tempo::Nope") = (.ok (.refused unknown), taken) ∧
      vacant.LeavesNoTrace unknown late.offered (Machine.start ⟨vacant, [], none⟩ late) ∧
      (vacant.perform (.attachNamed Config.mapScheduler)).1 = .error (.construction unknown) ∧
      vacant.FailsCleanly (choosing Config.mapScheduler) (.panic (.construction unknown)) ∧
      (vacant.perform (.attach .facade .heap)).1 = .error (.construction unknown) ∧
      vacant.FailsCleanly (attaching .heap) (.panic (.construction unknown)) := by
  intro taken misnamed vacant unknown late
  have htaken : taken.RefusesKernel .kernelPresent := ⟨_, rfl, rfl, rfl⟩
  have hmisnamed : (misnamed.make (.watched 3)).2.RefusesKernel unknown := ⟨_, rfl, rfl⟩
  have hvacant : vacant.Unbuildable unknown := ⟨rfl, _, rfl, rfl⟩
  obtain ⟨hinstall, hchoose, -⟩ := failures_leave_no_trace taken
  obtain ⟨hu, -, hfresh⟩ := (failures_leave_no_trace misnamed).1 (.fresh (.watched 3)) 2 _ rfl
  obtain ⟨-, hnamed, hattach, hcall, -⟩ := failures_leave_no_trace vacant
  obtain ⟨hpanics, hleaves⟩ := hcall [] none late unknown
  refine ⟨?_, (hfresh _ _).2 ⟨hmisnamed, rfl, rfl⟩, hu, ?_, hleaves (hpanics.2 ⟨hvacant, rfl⟩),
    rfl, ?_, rfl, ?_⟩
  · exact ((hinstall (.held (.numbered 1)) 1 taken rfl).2.2 _ _).2 ⟨htaken, rfl, rfl⟩
  · exact ((hchoose "tempo::Nope").2.1 _ _).2 ⟨⟨rfl, rfl⟩, rfl, rfl⟩
  · exact ((hnamed Config.mapScheduler).2.2 [] none unknown).1 ⟨rfl, rfl⟩
  · exact ((hattach .heap).2 [] none unknown).1 ⟨rfl, rfl⟩

end World

end EventSim
