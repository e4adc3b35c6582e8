import EventSim.Proofs.Translation.Machines

/-!
# Nobody can tell when the kernel was built

The facade has no kernel as long as nobody asks for one, and builds the configured one then.
`World.scenes_facade`: **a program of calls on the facade is seen like the same program on a kernel
that was made by hand before its first call**, and got the configured scheduler at once.

The calls that do not build a kernel have a ready answer, which is the one that a fresh kernel would
give: it issued no handle yet.  So the world is either still without the kernel or the same as if it
had been built at the beginning, `World.built`; and behind the facade that kernel does what it would
do under a name of its own.
-/

namespace EventSim

/-- What is called is another target. -/
def Manner.towards (t : Target) : Manner where
  target := fun _ => t
  eager := false
  unstopped := false

/-- What is told of a call: what happens in it, and its answer. -/
def Scene.told (x : Scene) : List Sight × Except Panic Reply := (x.seen.map Prod.fst, x.answer)

theorem RendersScene.told_eq {μ : Manner} {T : Target → Prop} {ids : KernelId → Prop} {x y : Scene}
    (h : RendersScene μ T ids x y) :
    y.told = Prod.map (List.map (Sight.translate μ)) id x.told := by
  show (_, _) = (_, _)
  rw [map_sights h.seen, h.answer]
  rfl

namespace World

variable {b : Backend} {w : World} {P : List Command}

/-! ### Worlds without a kernel behind the facade -/

/-- The slot is empty; the configuration names the built-in kernel and a scheduler of the kind
`b`. -/
structure Vacant (b : Backend) (w : World) : Prop where
  slot : w.slot = none
  named : ∃ c, w.config = .ok c ∧ w.registry.kernel c.kernelType = .ok (.builtIn 0) ∧
    w.registry.scheduler c.schedulerType = .ok b

/-- The world with another kernel, to which a scheduler of the kind `b` was attached. -/
def withKernel (w : World) (b : Backend) : World :=
  { w with engines := w.engines ++ [.builtIn false ((Kernel.fresh w.engines.length 0).attach b)] }

/-- The world in which the kernel of the facade was built. -/
def built (w : World) (b : Backend) : World :=
  { w.withKernel b with slot := some w.engines.length, printers := .standard }

/-- The world in which a kernel was made by hand. -/
def equipped (w : World) (b : Backend) : World :=
  (w.build none (.builtIn 0)).2.attach w.engines.length b

theorem attach_make (w : World) (b : Backend) :
    { w with engines := w.engines ++ [Engine.builtIn false (.fresh w.engines.length 0)] }.attach
      w.engines.length b = w.withKernel b := by
  have hk : (w.engines ++ [Engine.builtIn false (.fresh w.engines.length 0)])[w.engines.length]? =
      some (.builtIn false (.fresh w.engines.length 0)) := List.getElem?_concat_length
  have hset (e e' : Engine Action) :
      (w.engines ++ [e]).set w.engines.length e' = w.engines ++ [e'] := by
    rw [List.set_append_right _ _ (Nat.le_refl _), Nat.sub_self]
    rfl
  simp only [attach, engine?, hk]
  show { w with engines := (w.engines ++ _).set w.engines.length _ } = _
  rw [hset]
  rfl

theorem engine?_withKernel (w : World) (b : Backend) :
    (w.withKernel b).engine? w.engines.length =
      some (.builtIn false ((Kernel.fresh w.engines.length 0).attach b)) :=
  List.getElem?_concat_length

namespace Vacant

variable (h : w.Vacant b)

include h

/-- The facade builds its kernel. -/
theorem construct_eq : w.construct = .ok (w.engines.length, w.built b) := by
  obtain ⟨c, hc, hk, hb⟩ := h.named
  have hoccupy : (w.make (.builtIn 0)).2.occupy w.engines.length b = w.built b :=
    congrArg (fun v : World => { v with printers := .standard })
      (attach_make { w with slot := some w.engines.length } b)
  simp only [construct, hc, hk, hb]
  exact congrArg (fun v => Except.ok (w.engines.length, v)) hoccupy

theorem reach_eq : w.reach .facade = (w.built b).reach .facade := by
  rw [reach, resolve, h.slot]
  exact h.construct_eq

theorem onReached_eq (f : KernelId → Engine Action → World → Except Panic Reply × World) :
    w.onReached .facade f = (w.built b).onReached .facade f := by
  have hr := h.reach_eq
  rw [show (w.built b).reach .facade = .ok (w.engines.length, w.built b) from rfl] at hr
  simp only [onReached, hr]
  rfl

theorem schedule_eq (timing : Timing) (name : HandleName) (a : Action) :
    w.schedule .facade timing name a = (w.built b).schedule .facade timing name a := by
  have hr := h.reach_eq
  rw [show (w.built b).reach .facade = .ok (w.engines.length, w.built b) from rfl] at hr
  simp only [schedule, hr]
  rfl

theorem forgetInjected : w.forgetInjected.Vacant b := ⟨h.slot, h.named⟩

end Vacant

/-- A kernel that was just built issued none of the handles at hand. -/
theorem Sound.not_issued (s : w.Sound) (b : Backend) (name : HandleName) :
    ¬ ((Kernel.fresh w.engines.length 0 : Kernel Action).attach b).Issued (w.handle name) := by
  intro hi
  rcases keeps_handle w name with hn | ⟨p, hp, hh⟩
  · rw [hn] at hi
    cases hi
  · rw [← hh] at hi
    exact absurd (s.owners p hp _ hi) (Nat.lt_irrefl _)

/-- **A command either builds the kernel or has an answer ready** that the fresh kernel would give,
too. -/
theorem Vacant.perform (h : w.Vacant b) (s : w.Sound) {x : Command}
    (hx : x.Directed (· = .facade)) :
    w.perform x = (w.built b).perform x ∨
      ∃ r, w.perform x = (r, w) ∧ (w.built b).perform x = (r, w.built b) := by
  have hfind : (w.built b).find .facade = .ok (some w.engines.length) := rfl
  have hk : (w.built b).engine? w.engines.length =
      some (.builtIn false ((Kernel.fresh w.engines.length 0).attach b)) := engine?_withKernel w b
  have hnone {without : Reply} {f : KernelId → Engine Action → Except Panic Reply × World} :
      w.onFound .facade without f = (.ok without, w) := by
    simp only [onFound, find, h.slot]
  cases x with
  | schedule t timing name a =>
    obtain ⟨rfl, -⟩ := hx
    exact .inl (h.schedule_eq timing name a)
  | scheduleEach t delays name a =>
    obtain ⟨rfl, -⟩ := hx
    cases delays with
    | nil => exact .inr ⟨_, rfl, rfl⟩
    | cons delay rest =>
      left
      simp only [World.perform, World.scheduleEach, h.schedule_eq]
  | chain t tag delay length name =>
    cases hx
    cases length with
    | zero => exact .inr ⟨_, rfl, rfl⟩
    | succ left => exact .inl (h.schedule_eq _ name _)
  | stopAfter t delay name =>
    cases hx
    exact .inl (h.onReached_eq _)
  | cancel t name =>
    cases hx
    refine .inr ⟨.ok .done, hnone, ?_⟩
    show (w.built b).cancel .facade (w.handle name) = _
    rw [cancel_eq hfind hk, Kernel.cancel, if_neg (s.not_issued b name), setEngine_of_engine? hk]
    rfl
  | remove t name =>
    cases hx
    refine .inr ⟨.ok .done, hnone, ?_⟩
    show (w.built b).remove .facade (w.handle name) = _
    rw [remove_eq hfind hk, Kernel.remove, if_neg (s.not_issued b name), setEngine_of_engine? hk]
    rfl
  | isExpired t name =>
    cases hx
    refine .inr ⟨.ok (.flag true), hnone, ?_⟩
    show (w.built b).isExpired .facade (w.handle name) = _
    simp only [World.isExpired, onFound, hfind, hk, Engine.isExpired, Kernel.isExpired,
      if_neg (s.not_issued b name)]
  | delayLeft t name =>
    cases hx
    exact .inl (h.onReached_eq _)
  | stop t =>
    cases hx
    exact .inl (h.onReached_eq _)
  | attach t b' =>
    obtain ⟨rfl, -⟩ := hx
    exact .inl (h.onReached_eq _)
  | query t q =>
    cases hx
    cases q with
    | systemId =>
      refine .inr ⟨.ok (.systemId 0), hnone, ?_⟩
      simp only [World.perform, ask, onFound, hfind, hk]
      rfl
    | _ => exact .inl (h.onReached_eq _)
  | idle | inspect | same | panic | run | destroy => exact .inr ⟨_, rfl, rfl⟩
  | _ => exact hx.elim

/-- The same call is made, or it has ended with nothing built. -/
theorem Vacant.ofCall (h : w.Vacant b) (s : w.Sound) {x : Command}
    (hx : x.Directed (· = .facade)) :
    Machine.ofCall w x = Machine.ofCall (w.built b) x ∨
      ∃ v r, v.Vacant b ∧ v.Sound ∧ Machine.ofCall w x = ⟨v, [], some r⟩ ∧
        Machine.ofCall (w.built b) x = ⟨v.built b, [], some r⟩ := by
  cases hd : x.drives with
  | true =>
    left
    have hr := h.reach_eq
    cases x with
    | run t | destroy t =>
      cases hx
      simp only [Machine.ofCall, Machine.start, hr]
      rfl
    | teardown | scenario => exact hx.elim
    | _ => cases hd
  | false =>
    rw [Machine.ofCall, Machine.ofCall, Machine.start_of_not_drives hd,
      Machine.start_of_not_drives hd]
    rcases h.perform s hx with hp | ⟨r, hp, hp'⟩
    · left
      rw [hp]
    · right
      rw [hp, hp']
      cases r with
      | ok r => exact ⟨w, .ok r, h, s, rfl, rfl⟩
      | error p =>
        have haside : w.Aside w.forgetInjected := ⟨rfl, rfl, rfl, rfl, rfl⟩
        exact ⟨w.forgetInjected, .error p, h.forgetInjected, s.aside haside, rfl, rfl⟩

/-- **It makes no difference whether the kernel is built at the beginning.** -/
theorem Vacant.scenes_built (h : w.Vacant b) (s : w.Sound)
    (hP : ∀ x ∈ P, x.All (Command.Directed (· = .facade))) :
    ((w.built b).scenes P).map Scene.told = (w.scenes P).map Scene.told := by
  induction P generalizing w with
  | nil => rfl
  | cons x rest ih =>
    obtain ⟨hx, hrest⟩ := List.forall_mem_cons.1 hP
    rw [scenes, scenes, List.map_cons, List.map_cons]
    rcases h.ofCall s hx.self with hm | ⟨v, r, hv, sv, hm, hm'⟩
    · simp only [scene, World.call, hm]
    · have hend (v : World) : Machine.seen ⟨v, [], some r⟩ = [] ∧
          Machine.run ⟨v, [], some r⟩ = ⟨v, [], some r⟩ := (Machine.Sees.refl _).ends rfl
      have hw : w.call x = (r, v) := by
        rw [World.call, hm, (hend v).2]
        rfl
      have hb : (w.built b).call x = (r, v.built b) := by
        rw [World.call, hm', (hend _).2]
        rfl
      rw [scene, scene, hm, hm', hw, hb, (hend _).1, (hend _).1, ih hv sv hrest]
      rfl

/-! ### A kernel of its own -/

theorem Vacant.isBuiltIn (h : w.Vacant b) (s : w.Sound) : b.isBuiltIn = true := by
  obtain ⟨c, -, -, hb⟩ := h.named
  exact s.isBuiltIn hb

theorem Sound.built (s : w.Sound) (hb : b.isBuiltIn = true) : (w.built b).Sound := by
  have hs : (w.withKernel b).Sound := by
    rw [← attach_make]
    exact (s.made (.builtIn 0)).attach hb w.engines.length
  exact hs.slot _ _

/-- The kernel behind the facade does what it does under a name of its own. -/
theorem renders_equipped (w : World) (hb : b.isBuiltIn = true) :
    Renders (.towards (.kernel (.numbered w.countNumbered))) (· = .facade)
      (· = w.engines.length) (w.built b) (w.equipped b) := by
  have hequipped : w.equipped b =
      { w.withKernel b with named := (w.build none (.builtIn 0)).2.named } :=
    attach_make { w with named := (w.build none (.builtIn 0)).2.named } b
  have hk := engine?_withKernel w b
  rw [hequipped]
  refine ⟨rfl, ?_, ?_, ?_, fun _ _ => rfl⟩
  · rintro t rfl
    exact ⟨nofun, nofun⟩
  · rintro t rfl
    refine ⟨_, rfl, rfl, ?_⟩
    simp [find, lookup, build, make, Manner.towards]
  · rintro id rfl
    exact ⟨_, _, hk, hk, (Kernel.renders_fresh _ _).attach hb⟩

/-- **Nobody can tell when the kernel was built.**  A program of calls on a facade without a kernel
is seen like the same program on a kernel that was made by hand and got the configured scheduler
before the first call: all calls end alike, and the same events start at the same times and under
the same contexts. -/
theorem scenes_facade (h : w.Vacant b) (s : w.Sound)
    (hP : ∀ x ∈ P, x.All (Command.Directed (· = .facade))) :
    let μ := Manner.towards (.kernel (.numbered w.countNumbered))
    ((w.equipped b).scenes (translateAll μ P)).map Scene.told =
      ((w.scenes P).map Scene.told).map (Prod.map (List.map (Sight.translate μ)) id) := by
  intro μ
  have hb := h.isBuiltIn s
  have hscenes := (renders_equipped w hb).scenes (s.built hb) rfl hP
  rw [← h.scenes_built s hP]
  generalize (w.built b).scenes P = l at hscenes
  generalize (w.equipped b).scenes (translateAll μ P) = l' at hscenes
  induction hscenes with
  | nil => rfl
  | cons hx _ ih => simp only [List.map_cons, ih, hx.told_eq, μ]

/-- A world without a kernel behind the facade, with another kernel that holds an event. -/
def besideKernel : World :=
  let t : Target := .kernel (.numbered 0)
  let w := (Machine.ofCall (pristine none) (.build none (.builtIn 0))).world
  (Machine.ofCall w (.schedule t (.after (.clamp 5)) (.word "other") (.silent []))).world

theorem sound_besideKernel : besideKernel.Sound := by
  have h : Machine.Reached Command.Lawful (Machine.ofCall (Machine.ofCall (pristine none)
      (.build none (.builtIn 0))).world (.schedule (.kernel (.numbered 0)) (.after (.clamp 5))
      (.word "other") (.silent []))) := by
    refine .call (.call (.pristine none) rfl ?_) rfl ?_
    all_goals simp [Command.All, Action.silent, Action.All, allOf, Command.Lawful]
  exact h.sound

/-- Questions about foreign handles, two events and two runs. -/
def facadeProgram : List Command :=
  let event (n : Nat) (body : List Command) : Command :=
    .schedule .facade (.after (.clamp n)) (.numbered n) (.mk (some "event") true .facade body)
  [.cancel .facade (.word "other"), .remove .facade (.numbered 9),
    .isExpired .facade (.word "other"), .query .facade .systemId,
    event 1 [.isExpired .facade (.word "other"), .stop .facade], event 2 [], .run .facade,
    .query .facade .isFinished, .run .facade]

/-- The kernel is built by the fifth call only, and stopped after the first event. -/
theorem scenes_facade_stopping :
    let μ := Manner.towards (.kernel (.numbered 1))
    let w := besideKernel
    ((w.equipped .map).scenes (translateAll μ facadeProgram)).map Scene.told =
        ((w.scenes facadeProgram).map Scene.told).map (Prod.map (List.map (Sight.translate μ)) id) ∧
      (w.scenes facadeProgram).map (fun x => x.after.slot) =
        [none, none, none, none, some 1, some 1, some 1, some 1, some 1] ∧
      (w.scenes facadeProgram).map Scene.starts =
        [[], [], [], [], [], [], [.clamp 1], [], [.clamp 2]] := by
  have hvacant : besideKernel.Vacant .map := ⟨rfl, _, rfl, rfl, rfl⟩
  refine ⟨scenes_facade hvacant sound_besideKernel ?_, by decide +kernel, by decide +kernel⟩
  simp [facadeProgram, Command.All, Action.All, allOf, Command.Directed, Action.Minds,
    Action.target]

end World

end EventSim
