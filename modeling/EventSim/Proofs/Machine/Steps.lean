import EventSim.Proofs.Machine.Programs
import EventSim.Proofs.World.Sound

/-!
# Steps of the machine

What a step may bring about is decided by the topmost frame: the next command of a body starts, a
run loop or a destruction does its next deed, the end of a teardown clears the slot.
`Machine.evolves_step` says so in terms of `Frame.Brings`.
-/

namespace EventSim

namespace Deed

variable {α : Type}

/-- The run loop does it. -/
def OfRun : Deed α → Prop
  | started _ | skipped _ | strayed _ | ended | stopped => True
  | _ => False

/-- The destruction of a kernel does it. -/
def OfDestruction : Deed α → Prop
  | unwound _ | swept => True
  | _ => False

end Deed

/-- What a step of a frame may bring about. -/
def Frame.Brings (w : World) (f : Frame) (x : Happening) : Prop :=
  match f with
  | .body _ (c :: _) => c.Brings w x
  | .running id => World.Building x ∨ ∃ d : Deed Action, d.OfRun ∧ x = .did id d
  | .destroying id => World.Building x ∨ ∃ d : Deed Action, d.OfDestruction ∧ x = .did id d
  | .clearing _ => x = .aside ∨ x = .vacated ∨ ∃ id, w.slot = some id ∧ x = .did id .vanished
  | .scenario _ (.probing _ (probe :: _) _) => probe.command.Brings w x
  | .scenario _ (.judged ..) => x = .aside ∨ x = .unprinted
  | .body _ [] | .answering .. | .scenario .. => x = .aside

/-- What a command may bring about depends on the saved handles alone. -/
theorem Command.Brings.congr {w w' : World} {c : Command} {x : Happening}
    (h : w'.handles = w.handles) (hx : c.Brings w x) : c.Brings w' x := by
  have hh (name : HandleName) : w'.handle name = w.handle name := by
    rw [World.handle, World.handle, h]
  cases x with
  | did id d =>
    cases d with
    | removed g =>
      obtain ⟨t, name, hc, hg⟩ := hx
      exact ⟨t, name, hc, hg.trans (hh name).symm⟩
    | cancelled g =>
      obtain ⟨t, name, hc, hg⟩ := hx
      exact ⟨t, name, hc, hg.trans (hh name).symm⟩
    | stored key payload => cases payload <;> exact hx
    | _ => exact hx
  | _ => exact hx

namespace World

variable {w : World} {id : KernelId}

theorem aside_forgetInjected (w : World) : w.Aside w.forgetInjected := ⟨rfl, rfl, rfl, rfl, rfl⟩

theorem setEngine_setEngine (e e' : Engine Action) :
    (w.setEngine id e).setEngine id e' = w.setEngine id e' := by
  have : (w.engines.set id e).set id e' = w.engines.set id e' := List.set_set ..
  simp only [setEngine, this]

theorem mapEngine_of_engine? {e : Engine Action} (h : w.engine? id = some e)
    (f : Engine Action → Engine Action) : w.mapEngine id f = w.setEngine id (f e) := by
  have : w.engines.modify id f = w.engines.set id (f e) := by
    obtain ⟨hi, rfl⟩ := List.getElem?_eq_some_iff.1 h
    exact List.modify_eq_set_get f hi
  simp only [mapEngine, setEngine, this]

/-- A kernel that has lost its place is left alone or vanishes. -/
theorem evolves_abandon (w : World) (id : KernelId) :
    Evolves (fun x => x = .aside ∨ x = .did id .vanished) w (w.abandon id) := by
  unfold abandon
  split
  · exact .refl _ _
  · split
    · exact .refl _ _
    · rename_i e he
      have ha := aside_releaseAll w e.held
      have he' : (w.releaseAll e.held).engine? id = some e := by
        rw [engine?, ha.engines]
        exact he
      refine (Evolves.aside (.inl rfl) ha).trans ?_
      rw [mapEngine_of_engine? he']
      cases e with
      | builtIn watched k => exact .single (.did he' (.vanished k) trivial) (.inr rfl)
      | fixed k =>
        simp only [Engine.onKernel, setEngine_of_engine? he']
        exact .refl _ _

end World

namespace Machine

open World (Evolves Building)

variable {m : Machine} {w : World} {stack : List Frame} {result : Option (Except Panic Reply)}

/-! ### Ends and starts of calls -/

theorem aside_panic (p : Panic) : w.Aside (panic ⟨w, stack, result⟩ p).world :=
  World.aside_forgetInjected w

theorem aside_deliver (r : Reply) : w.Aside (deliver ⟨w, stack, result⟩ r).world := by
  unfold deliver
  dsimp only
  split
  · exact .refl w
  · split
    · exact World.aside_log w _
    · exact .refl w
  · split <;> exact .refl w
  · exact .refl w

theorem evolves_startAction (a : Action) :
    Evolves Building w (startAction ⟨w, stack, result⟩ a).world := by
  unfold startAction
  dsimp only
  split
  · exact .refl _ _
  · split
    · exact .aside trivial (aside_panic _)
    · rename_i hn
      refine (World.evolves_nowOf hn).trans ?_
      split
      · exact .aside trivial (aside_panic _)
      · rename_i hc
        exact (World.evolves_contextOf hc).trans (.aside trivial (World.aside_log _ _))

/-- An action that starts is next on the stack, unless somebody panics on the way. -/
theorem stack_startAction (w : World) (stack : List Frame) (result : Option (Except Panic Reply))
    (a : Action) :
    (startAction ⟨w, stack, result⟩ a).stack = .body a.reporting a.body :: stack ∨
      (startAction ⟨w, stack, result⟩ a).stack = [] ∧
        ∃ p, (startAction ⟨w, stack, result⟩ a).result = some (.error p) := by
  unfold startAction
  dsimp only
  split
  · exact .inl rfl
  · split
    · exact .inr ⟨rfl, _, rfl⟩
    · split
      · exact .inr ⟨rfl, _, rfl⟩
      · exact .inl rfl

theorem evolves_beginRun (id : KernelId) :
    Evolves (fun x => x = .aside ∨ x = .did id .began) w
      (beginRun ⟨w, stack, result⟩ id).world := by
  unfold beginRun
  split
  · rename_i watched k he
    exact .single (.did he (.began k) trivial) (.inr rfl)
  · exact .aside (.inl rfl) (aside_deliver _)

theorem aside_beginDestroy (id : KernelId) :
    w.Aside (beginDestroy ⟨w, stack, result⟩ id).world := by
  unfold beginDestroy
  split
  · dsimp only
    split
    · exact World.aside_log w _
    · exact .refl w
  · exact aside_deliver _

theorem evolves_beginTeardown :
    Evolves (fun x => x = .aside ∨ x = .unprinted) w
      (beginTeardown ⟨w, stack, result⟩).world := by
  unfold beginTeardown
  split
  · exact .aside (.inl rfl) (aside_deliver _)
  · refine (Evolves.single (.unprinted w) (.inr rfl)).trans ?_
    exact .aside (.inl rfl) (aside_beginDestroy _)

theorem start_of_not_drives {x : Command} (hx : x.drives = false) :
    start ⟨w, stack, result⟩ x =
      match w.perform x with
      | (.error p, w) => panic ⟨w, stack, result⟩ p
      | (.ok r, w) => deliver ⟨w, stack, result⟩ r := by
  cases x with
  | run | destroy | teardown | scenario => cases hx
  | _ => rfl

theorem evolves_start (c : Command) :
    Evolves (c.Brings w) w (start ⟨w, stack, result⟩ c).world := by
  have hb : ∀ x, Building x → c.Brings w x := fun x => Command.brings_of_building
  unfold start
  split
  · rename_i t
    split
    · exact .aside trivial (aside_panic _)
    · rename_i id v hr
      refine ((World.evolves_reach hr).mono hb).trans ((evolves_beginRun id).mono ?_)
      rintro x (rfl | rfl)
      · trivial
      · exact ⟨t, rfl⟩
  · split
    · exact .aside trivial (aside_panic _)
    · rename_i id v hr
      exact ((World.evolves_reach hr).mono hb).trans (.aside trivial (aside_beginDestroy id))
  · refine evolves_beginTeardown.mono ?_
    rintro x (rfl | rfl)
    · trivial
    · exact .inl rfl
  · rename_i request
    split
    · exact .aside trivial (aside_deliver _)
    · refine evolves_beginTeardown.mono ?_
      rintro x (rfl | rfl)
      · trivial
      · exact .inr ⟨request, rfl⟩
  · have h := World.evolves_perform w c
    split
    · rename_i hp
      rw [hp] at h
      exact h.trans (.aside trivial (aside_panic _))
    · rename_i hp
      rw [hp] at h
      exact h.trans (.aside trivial (aside_deliver _))

/-! ### Turns of run loops and destructions -/

/-- The session after a turn of the run loop of a kernel. -/
inductive RunTurn (w : World) (id : KernelId) (stack rest : List Frame)
    (result : Option (Except Panic Reply)) : Machine → Prop
  /-- Only built-in kernels have something to run. -/
  | absent : (∀ watched k, w.engine? id ≠ some (.builtIn watched k)) →
      RunTurn w id stack rest result (deliver ⟨w, rest, result⟩ .done)
  | ended {watched : Bool} {k : Kernel Action} :
      w.engine? id = some (.builtIn watched k) → k.dequeue = .idle →
      RunTurn w id stack rest result
        (deliver ⟨w.setEngine id (.builtIn watched k.endRun), rest, result⟩ .done)
  | skipped {watched : Bool} {k k' : Kernel Action} {payload : Payload Action} :
      w.engine? id = some (.builtIn watched k) → k.dequeue = .skipped payload k' →
      RunTurn w id stack rest result
        ⟨(w.setEngine id (.builtIn watched k')).releaseAll payload.action?.toList, stack, result⟩
  | strayed {watched : Bool} {k k' : Kernel Action} {payload : Payload Action} :
      w.engine? id = some (.builtIn watched k) → k.dequeue = .past payload k' →
      RunTurn w id stack rest result
        (panic ⟨(w.setEngine id (.builtIn watched k')).releaseAll payload.action?.toList, stack,
          result⟩ .clockWentBack)
  | halted {watched : Bool} {k k' : Kernel Action} {e : Event (Payload Action)} :
      w.engine? id = some (.builtIn watched k) → k.dequeue = .started e k' → e.payload = .halt →
      RunTurn w id stack rest result ⟨w.setEngine id (.builtIn watched k'.stop), stack, result⟩
  | launched {watched : Bool} {k k' : Kernel Action} {e : Event (Payload Action)} {a : Action} :
      w.engine? id = some (.builtIn watched k) → k.dequeue = .started e k' → e.payload = .act a →
      RunTurn w id stack rest result
        (startAction ⟨w.setEngine id (.builtIn watched k'), stack, result⟩ a)

theorem runTurn_stepRun (w : World) (id : KernelId) (stack rest : List Frame)
    (result : Option (Except Panic Reply)) :
    RunTurn w id stack rest result (stepRun ⟨w, stack, result⟩ id rest) := by
  unfold stepRun
  split
  · rename_i he
    split <;> rename_i hq
    · exact .ended he hq
    · exact .skipped he hq
    · exact .strayed he hq
    · split <;> rename_i hp
      · exact .halted he hq hp
      · exact .launched he hq hp
  · rename_i hne
    exact .absent hne

/-- The session after a turn of the destruction of a kernel. -/
inductive DestroyTurn (w : World) (id : KernelId) (stack rest : List Frame)
    (result : Option (Except Panic Reply)) : Machine → Prop
  | absent : (∀ watched k, w.engine? id ≠ some (.builtIn watched k)) →
      DestroyTurn w id stack rest result (deliver ⟨w, rest, result⟩ .done)
  | unwound {watched : Bool} {k k' : Kernel Action} {e : TeardownEvent Action} :
      w.engine? id = some (.builtIn watched k) → k.popTeardown = some (e, k') →
      DestroyTurn w id stack rest result
        (startAction ⟨w.setEngine id (.builtIn watched k'), stack, result⟩ e.action)
  | swept {watched : Bool} {k : Kernel Action} :
      w.engine? id = some (.builtIn watched k) → k.popTeardown = none →
      DestroyTurn w id stack rest result
        (deliver ⟨(w.setEngine id (.builtIn watched k.sweep.2)).releaseAll k.sweep.1, rest,
          result⟩ .done)

theorem destroyTurn_stepDestroy (w : World) (id : KernelId) (stack rest : List Frame)
    (result : Option (Except Panic Reply)) :
    DestroyTurn w id stack rest result (stepDestroy ⟨w, stack, result⟩ id rest) := by
  unfold stepDestroy
  split
  · rename_i he
    split <;> rename_i hq
    · exact .unwound he hq
    · exact .swept he hq
  · rename_i hne
    exact .absent hne

/-! ### Steps -/

theorem evolves_stepRun (id : KernelId) (rest : List Frame) :
    Evolves ((Frame.running id).Brings w) w (stepRun ⟨w, stack, result⟩ id rest).world := by
  have haside : (Frame.running id).Brings w .aside := .inl trivial
  have hdid {d : Deed Action} (hd : d.OfRun) : (Frame.running id).Brings w (.did id d) :=
    .inr ⟨d, hd, rfl⟩
  unfold stepRun
  split
  · rename_i watched k he
    split
    · exact (Evolves.single (.did he (.ended k) trivial) (hdid trivial)).trans
        (.aside haside (aside_deliver _))
    · rename_i hq
      exact (Evolves.single (.did he (.skipped hq) trivial) (hdid trivial)).trans
        (.aside haside (World.aside_releaseAll _ _))
    · rename_i hq
      refine (Evolves.single (.did he (.strayed hq) trivial) (hdid trivial)).trans ?_
      exact .aside haside ((World.aside_releaseAll _ _).trans (aside_panic _))
    · rename_i e k' hq
      have hs := Evolves.single (.did he (.started hq) trivial) (hdid trivial)
      split
      · refine hs.trans ?_
        have he' := World.engine?_setEngine_self he (.builtIn watched k')
        have h := World.Happens.did he' (.stopped k') trivial
        rw [World.setEngine_setEngine] at h
        exact .single h (hdid trivial)
      · exact hs.trans ((evolves_startAction _).mono fun x hx => .inl hx)
  · exact .aside haside (aside_deliver _)

theorem evolves_stepDestroy (id : KernelId) (rest : List Frame) :
    Evolves ((Frame.destroying id).Brings w) w (stepDestroy ⟨w, stack, result⟩ id rest).world := by
  have haside : (Frame.destroying id).Brings w .aside := .inl trivial
  have hdid {d : Deed Action} (hd : d.OfDestruction) :
      (Frame.destroying id).Brings w (.did id d) := .inr ⟨d, hd, rfl⟩
  unfold stepDestroy
  split
  · rename_i watched k he
    split
    · rename_i hq
      exact (Evolves.single (.did he (.unwound hq) trivial) (hdid trivial)).trans
        ((evolves_startAction _).mono fun x hx => .inl hx)
    · rename_i hq
      have ht := Kernel.popTeardown_eq_none.1 hq
      refine (Evolves.single (.did he (.swept k ht) trivial) (hdid trivial)).trans ?_
      exact .aside haside ((World.aside_releaseAll _ _).trans (aside_deliver _))
  · exact .aside haside (aside_deliver _)

theorem evolves_stepClear (found : KernelId) (rest : List Frame) :
    Evolves ((Frame.clearing found).Brings w) w (stepClear ⟨w, stack, result⟩ rest).world := by
  unfold stepClear
  refine Evolves.trans ?_ (.aside (.inl rfl) (aside_deliver _))
  dsimp only
  split
  · exact .refl _ _
  · rename_i id hs
    refine Evolves.trans (.single (.vacated w) (.inr (.inl rfl))) ?_
    refine (World.evolves_abandon _ id).mono ?_
    rintro x (rfl | rfl)
    · exact .inl rfl
    · exact .inr (.inr ⟨id, hs, rfl⟩)

theorem aside_stepOpened (run : ScenarioRun) (rest : List Frame) :
    w.Aside (stepOpened ⟨w, stack, result⟩ run rest).world := by
  unfold stepOpened
  split
  · exact aside_panic _
  · have h := World.aside_chooseScheduler w run.scheduler
    split
    · rename_i hc
      rw [hc] at h
      exact h.trans (aside_panic _)
    · rename_i hc
      rwa [hc] at h
    · rename_i hc
      rw [hc] at h
      exact h.trans ⟨rfl, rfl, rfl, rfl, rfl⟩

theorem aside_stepRestore (run : ScenarioRun) (saved : Config)
    (verdict : Except String (Nat × Time)) (rest : List Frame) :
    w.Aside (stepRestore ⟨w, stack, result⟩ run saved verdict rest).world := by
  unfold stepRestore
  have h := World.aside_apply w saved
  split
  · rename_i hc
    rw [hc] at h
    exact h.trans (aside_panic _)
  · rename_i hc
    rw [hc] at h
    exact h.trans ((World.aside_forgetInjected _).trans (aside_deliver _))

theorem evolves_stepScenario (run : ScenarioRun) (stage : ScenarioStage) (rest : List Frame) :
    Evolves ((Frame.scenario run stage).Brings w) w
      (stepScenario ⟨w, stack, result⟩ run stage rest).world := by
  unfold stepScenario
  split
  · exact .aside rfl (aside_stepOpened run rest)
  · exact .refl _ _
  · exact evolves_start _
  · exact .refl _ _
  · exact evolves_beginTeardown
  · exact .aside rfl (aside_stepRestore run _ _ rest)

/-- **A step brings about nothing but what its topmost frame may.** -/
theorem evolves_step (f : Frame) (rest : List Frame) :
    Evolves (f.Brings w) w (step ⟨w, f :: rest, result⟩).world := by
  cases f with
  | body reporting left =>
    cases left with
    | nil => exact .refl _ _
    | cons c left =>
      rw [step]
      dsimp only
      generalize hv : (if (reporting && c.settles) = true then w.log (.began c.name) else w) = v
      have ha : w.Aside v := by
        rw [← hv]
        split
        · exact World.aside_log w _
        · exact .refl w
      exact Evolves.trans (.aside trivial ha) ((evolves_start c).mono fun x hx =>
        hx.congr ha.handles.symm)
  | answering reporting command left => exact .refl _ _
  | running id => exact evolves_stepRun id rest
  | destroying id => exact evolves_stepDestroy id rest
  | clearing found => exact evolves_stepClear found rest
  | scenario run stage => exact evolves_stepScenario run stage rest

/-- **What every step keeps, any number of steps keeps.** -/
theorem keeps_steps (I : Machine → Prop) (hstep : ∀ {m}, I m → I m.step) {m : Machine} (h : I m)
    (n : Nat) : I (m.steps n) := by
  induction n generalizing m with
  | zero => exact h
  | succ n ih =>
    rw [steps]
    split
    · exact h
    · exact ih (hstep h)

end Machine

end EventSim
