import EventSim.Proofs.Facade.Configuration
import EventSim.Proofs.World.Growth

/-!
# Kernels that cannot be built

A call that asks the facade for its kernel has it built if the slot is empty.  It panics if the
configuration names something that is not registered.  That this comes about depends on the world
and on the call alone: `World.Unbuildable` says in which worlds, `Command.Needs` by which calls.
**Such a call leaves nothing behind but the action that it gives up** (`World.hinges_perform`).
-/

namespace EventSim

/-! ### Calls that need the kernel of the facade -/

/-- The printers ask the facade for the present. -/
def Printers.Ask (p : Printers) : Prop :=
  p.time = some .standard ∨ p.time ≠ some .failing ∧ p.node = some .standard

/-- The call asks the facade for its kernel, which is built if need be. -/
def Command.Needs (w : World) : Command → Prop
  | .schedule t .. | .stopAfter t .. | .delayLeft t _ | .run t | .stop t | .destroy t
  | .attach t _ => t = .facade
  | .scheduleEach t delays .. => t = .facade ∧ delays ≠ []
  | .chain t _ _ length _ => t = .facade ∧ length ≠ 0
  | .query t q => t = .facade ∧ q ≠ .systemId
  | .attachNamed name => (w.registry.schedulers.find? name).isSome
  | .printing .stamp => w.printers.Ask
  | .printing (.print _) | .observe .now | .observe .context | .observe (.nowAnd _)
  | .capture => True
  | _ => False

/-- The action that the call gives up if it does not get hold of a kernel. -/
def Command.offered : Command → List Action
  | .schedule _ _ _ a => [a]
  | .scheduleEach _ _ _ a => [a.numbered 0]
  | .chain t tag delay (left + 1) name => [World.link t tag delay left name]
  | _ => []

/-- An outcome that is no panic about a kernel that could not be built. -/
def Built {ρ : Type} (r : Except Panic ρ) : Prop := ∀ e, r ≠ .error (.construction e)

theorem built_ok {ρ : Type} (a : ρ) : Built (.ok a : Except Panic ρ) := fun _ h => by cases h

/-- A panic that is passed on. -/
theorem Built.error {ρ τ : Type} {r : Except Panic ρ} {p : Panic} (hr : Built r)
    (h : r = .error p) : Built (.error p : Except Panic τ) := by
  rintro e ⟨rfl⟩
  exact hr e h

namespace World

variable {w v x : World} {t : Target} {e : SimError} {p : Panic} {id : KernelId} {ρ : Type}
  {l : List Action} {needs : Prop} {y : Except Panic ρ × World}

/-- No kernel can be built: the slot is empty, and `e` is about the first name of the configuration
that stands for nothing. -/
def Unbuildable (w : World) (e : SimError) : Prop :=
  w.slot = none ∧ ∃ c, w.config = .ok c ∧ w.registry.validate c = .error e

/-! ### Getting hold of a kernel -/

theorem built_config (w : World) : Built w.config := by
  intro e h
  unfold config at h
  split at h
  · cases h
  · split at h <;> cases h

theorem built_lookup (w : World) (name : KernelName) : Built (w.lookup name) := by
  intro e h
  unfold lookup at h
  split at h <;> cases h

theorem construct_eq_error_iff :
    w.construct = .error (.construction e) ↔
      ∃ c, w.config = .ok c ∧ w.registry.validate c = .error e := by
  unfold construct
  cases hc : w.config with
  | error p =>
    simp only [w.built_config.error hc e, reduceCtorEq, false_and, exists_false]
  | ok c =>
    simp only [Except.ok.injEq, exists_eq_left', Registry.validate]
    cases w.registry.kernel c.kernelType with
    | error e' => simp only [Except.error.injEq, Panic.construction.injEq]
    | ok spec =>
      cases w.registry.scheduler c.schedulerType with
      | error e' => simp only [Except.error.injEq, Panic.construction.injEq]
      | ok b => simp only [reduceCtorEq]

/-- **The facade does not get hold of a kernel exactly if none can be built.** -/
theorem reach_eq_error_iff :
    w.reach t = .error (.construction e) ↔ w.Unbuildable e ∧ t = .facade := by
  unfold reach
  cases t with
  | facade =>
    unfold resolve Unbuildable
    cases w.slot with
    | none => simp only [construct_eq_error_iff, true_and, and_true]
    | some id => simp only [reduceCtorEq, false_and]
  | kernel name =>
    simp only [reduceCtorEq, and_false, iff_false]
    split
    · exact (w.built_lookup name).error ‹_› e
    · exact fun h => by cases h

/-- The facade, if it is what is asked, has its kernel. -/
def Provided (w : World) (t : Target) : Prop := t = .facade → w.slot.isSome

theorem Provided.built (h : w.Provided t) : Built (w.reach t) := by
  intro e hr
  obtain ⟨⟨hs, -⟩, rfl⟩ := reach_eq_error_iff.1 hr
  have := h rfl
  rw [hs] at this
  cases this

theorem built_contextOf (h : Built (w.reach t)) : Built (w.contextOf t) := by
  unfold contextOf
  split
  · exact h.error ‹_›
  · exact built_ok _

theorem slot_occupy (w : World) (id : KernelId) (b : Backend) :
    (w.occupy id b).slot = some id :=
  slot_of_places (places_attach { w with slot := some id } id b)

theorem provided_of_reach (h : w.reach t = .ok (id, v)) : v.Provided t := by
  rintro rfl
  have h : w.resolve = .ok (id, v) := h
  unfold resolve construct at h
  split at h
  · rename_i hs
    cases h
    rw [hs]
    rfl
  · split at h
    · cases h
    · split at h
      · cases h
      · split at h
        · cases h
        · cases h
          rw [slot_occupy]
          rfl

/-! ### Failures to build -/

/-- `y` is the panic about a kernel that cannot be built, if none can be built and one is needed,
and in no other case.  Nothing is left behind but actions that are given up. -/
structure Hinges (w : World) (needs : Prop) (l : List Action) (y : Except Panic ρ × World) :
    Prop where
  fails_iff : ∀ e, y.1 = .error (.construction e) ↔ w.Unbuildable e ∧ needs
  leaves : ∀ e, w.Unbuildable e → needs → y.2 = w.releaseAll l

theorem hinges_never (hy : Built y.1) (hn : ¬ needs) : w.Hinges needs l y where
  fails_iff e := ⟨fun h => absurd h (hy e), fun h => absurd h.2 hn⟩
  leaves _ _ h := absurd h hn

/-- All that can keep a call from being carried out is that it does not get hold of a kernel. -/
theorem hinges_of_reach (herr : ∀ p, w.reach t = .error p → y = (.error p, w.releaseAll l))
    (hok : ∀ id v, w.reach t = .ok (id, v) → Built y.1) : w.Hinges (t = .facade) l y := by
  cases hr : w.reach t with
  | error p =>
    rw [herr p hr]
    refine ⟨fun e => ?_, fun _ _ _ => rfl⟩
    rw [← reach_eq_error_iff, hr, Except.error.injEq, Except.error.injEq]
  | ok z =>
    have hno (e : SimError) : ¬ (w.Unbuildable e ∧ t = .facade) := by
      rw [← reach_eq_error_iff, hr]
      exact fun h => by cases h
    exact ⟨fun e => ⟨fun h => absurd h (hok _ _ hr e), fun h => absurd h (hno e)⟩,
      fun e hu ht => absurd ⟨hu, ht⟩ (hno e)⟩

theorem Hinges.congr {needs' : Prop} (h : w.Hinges needs l y) (hn : needs ↔ needs') :
    w.Hinges needs' l y := by rwa [← propext hn]

/-- What is made of the answer does not matter. -/
theorem Hinges.map {τ : Type} {r : Except Panic ρ} (g : ρ → τ) (h : w.Hinges needs l (r, v)) :
    w.Hinges needs l (r.map g, v) := by
  refine ⟨fun e => ?_, h.leaves⟩
  rw [← h.fails_iff e]
  cases r <;> simp [Except.map]

/-- The same of a call that always asks the facade. -/
theorem hinges_of_resolve
    (herr : ∀ p, w.reach .facade = .error p → y = (.error p, w.releaseAll l))
    (hok : ∀ id v, w.reach .facade = .ok (id, v) → Built y.1) : w.Hinges True l y :=
  (hinges_of_reach herr hok).congr (eq_self_iff_true _)

theorem hinges_onReached {f : KernelId → Engine Action → World → Except Panic Reply × World}
    (hf : ∀ id e v, Built (f id e v).1) : w.Hinges (t = .facade) [] (w.onReached t f) := by
  refine hinges_of_reach (fun p h => ?_) fun id v h => ?_
  · rw [onReached, h]
    rfl
  · rw [onReached, h]
    dsimp only
    split
    · exact built_ok _
    · exact hf _ _ _

theorem built_onFound {without : Reply} {f : KernelId → Engine Action → Except Panic Reply × World}
    (hf : ∀ id e, Built (f id e).1) : Built (w.onFound t without f).1 := by
  unfold onFound find
  split
  · rename_i h
    split at h
    · cases h
    · split at h
      · cases h
        exact (w.built_lookup _).error ‹_›
      · cases h
  · exact built_ok _
  · split
    · exact built_ok _
    · exact hf _ _

/-! ### The commands -/

theorem hinges_schedule (w : World) (t : Target) (timing : Timing) (name : HandleName)
    (a : Action) : w.Hinges (t = .facade) [a] (w.schedule t timing name a) := by
  refine hinges_of_reach (fun p h => ?_) fun id v h => ?_
  · rw [schedule, h]
    rfl
  · rw [schedule, h]
    dsimp only
    split
    · exact built_ok _
    · split <;> exact built_ok _

/-- What got hold of a kernel once does so again. -/
theorem provided_schedule {timing : Timing} {name : HandleName} {a : Action} {r : Reply}
    (h : w.schedule t timing name a = (.ok r, v)) : v.Provided t := by
  unfold schedule at h
  split at h
  · cases h
  · rename_i id u hr
    have hu := provided_of_reach hr
    split at h
    · cases h
      exact hu
    · rename_i e _
      obtain ⟨trace, htrace⟩ := exists_trace u t e timing
      rw [htrace] at h
      dsimp only at h
      have hslot (e' : Engine Action) (dropped : List Action) :
          (({ u with trace := trace }.setEngine id e').releaseAll dropped).slot = u.slot :=
        slot_of_places ((places_releaseAll _ dropped).trans (places_setEngine _ id e'))
      intro ht
      split at h <;> cases h <;> exact (congrArg Option.isSome (hslot _ _)).trans (hu ht)

theorem built_scheduleEach (name : Option HandleName) (a : Action) (delays : List Time)
    {i : Nat} (hw : Built (w.reach t)) : Built (w.scheduleEach t name a i delays).1 := by
  induction delays generalizing w i with
  | nil => exact built_ok _
  | cons d rest ih =>
    have hs := w.hinges_schedule t (.after d) (name.getD (.word ((a.numbered i).tag.getD "")))
      (a.numbered i)
    have hb : Built (w.schedule t (.after d) (name.getD (.word ((a.numbered i).tag.getD "")))
        (a.numbered i)).1 := fun e he => by
      have hno := (hs.fails_iff e).1 he
      exact hw e (reach_eq_error_iff.2 hno)
    rw [scheduleEach]
    split
    · rename_i heq
      rw [heq] at hb
      exact hb.error rfl
    · rename_i heq
      have hv := ih (i := i + 1) (provided_schedule heq).built
      split
      · rename_i heq'
        rw [heq'] at hv
        exact hv.error rfl
      · exact built_ok _

theorem hinges_scheduleEach (w : World) (t : Target) (name : Option HandleName) (a : Action)
    (i : Nat) (delays : List Time) :
    w.Hinges (t = .facade ∧ delays ≠ []) [a.numbered i] (w.scheduleEach t name a i delays) := by
  cases delays with
  | nil => exact hinges_never (built_ok _) fun h => h.2 rfl
  | cons d rest =>
    refine Hinges.congr (hinges_of_reach (t := t) (fun p h => ?_) fun id v h => ?_)
      (by simp only [ne_eq, reduceCtorEq, not_false_eq_true, and_true])
    · rw [scheduleEach, schedule, h]
      rfl
    · exact built_scheduleEach name a _ (by rw [h]; exact built_ok _)

theorem hinges_stopAfter (w : World) (t : Target) (delay : Time) (name : HandleName) :
    w.Hinges (t = .facade) [] (w.stopAfter t delay name) := by
  refine hinges_onReached fun id e v => ?_
  split <;> exact built_ok _

/-- What is left of a delay is a matter of time. -/
theorem built_delayLeft {α : Type} (k : Kernel α) (h : Handle) : Built (k.delayLeft h) := by
  intro e he
  unfold Kernel.delayLeft at he
  split at he
  · cases he
  · dsimp only at he
    split at he <;> cases he

theorem hinges_delayLeft (w : World) (t : Target) (h : Handle) :
    w.Hinges (t = .facade) [] (w.delayLeft t h) := by
  refine hinges_onReached fun id e v => ?_
  split
  · rename_i p hp
    cases e with
    | fixed => cases hp
    | builtIn watched k => exact (built_delayLeft k h).error hp
  · exact built_ok _
  · exact built_ok _

theorem hinges_ask (w : World) (t : Target) (q : Query) :
    w.Hinges (t = .facade ∧ q ≠ .systemId) [] (w.ask t q) := by
  cases q with
  | systemId =>
    exact hinges_never (built_onFound fun _ _ => built_ok _) fun h => h.2 rfl
  | _ =>
    refine Hinges.congr (hinges_onReached (t := t) fun _ _ _ => built_ok _) ?_
    simp only [ne_eq, reduceCtorEq, not_false_eq_true, and_true]

theorem hinges_note (w : World) (s : Sighting) :
    w.Hinges ((Command.observe s).Needs w) [] (w.note s) := by
  cases s with
  | number => exact hinges_never (built_ok _) id
  | label => exact hinges_never (built_ok _) id
  | now =>
    refine hinges_of_resolve (fun p h => ?_) fun id v h => ?_
    · rw [note, nowOf, h]
      rfl
    · rw [note, nowOf, h]
      exact built_ok _
  | context =>
    refine hinges_of_resolve (fun p h => ?_) fun id v h => ?_
    · rw [note, contextOf, h]
      rfl
    · rw [note, contextOf, h]
      exact built_ok _
  | nowAnd i =>
    refine hinges_of_resolve (fun p h => ?_) fun id v h => ?_
    · rw [note, nowOf, h]
      rfl
    · rw [note, nowOf, h]
      exact built_ok _

/-- A printer that asks the facade. -/
theorem printPart_of_reach (w : World) (part : StampPart) :
    (∀ p, w.reach .facade = .error p → w.printPart part .standard = .error p) ∧
      ∀ id v, w.reach .facade = .ok (id, v) →
        ∃ text, w.printPart part .standard = .ok (some text, v) := by
  cases part with
  | time =>
    refine ⟨fun p h => ?_, fun id v h => ?_⟩
    · rw [printPart, nowOf, h]
    · rw [printPart, nowOf, h]
      exact ⟨_, rfl⟩
  | node =>
    refine ⟨fun p h => ?_, fun id v h => ?_⟩
    · rw [printPart, contextOf, h]
    · rw [printPart, contextOf, h]
      exact ⟨_, rfl⟩

theorem built_printPart (hw : Built (w.reach .facade)) (part : StampPart) (printer : Printer) :
    Built (w.printPart part printer) := by
  cases printer with
  | standard =>
    obtain ⟨herr, hok⟩ := w.printPart_of_reach part
    cases hr : w.reach .facade with
    | error p =>
      rw [herr p hr]
      exact hw.error hr
    | ok z =>
      obtain ⟨text, ht⟩ := hok z.1 z.2 hr
      rw [ht]
      exact built_ok _
  | fixed => cases part <;> exact built_ok _
  | failing => exact built_ok _

theorem built_printAfter (hw : Built (w.reach .facade)) (before : String) (part : StampPart)
    (printer : Option Printer) : Built (w.printAfter before part printer) := by
  unfold printAfter
  split
  · exact built_ok _
  · split
    · exact (built_printPart hw part _).error ‹_›
    · exact built_ok _
    · exact built_ok _

/-- The second part of a stamp, if the first one has not asked the facade. -/
theorem hinges_stamp_node (text : String)
    (h : w.printAfter "" .time w.printers.time = .ok (.ok text, w)) :
    w.Hinges (w.printers.node = some .standard) [] w.stamp := by
  unfold stamp
  dsimp only
  rw [h]
  dsimp only
  generalize (if (w.printers.time.isSome && w.printers.node.isSome) = true then text ++ " "
    else text) = before
  cases w.printers.node with
  | none => exact hinges_never (built_ok _) fun h => by cases h
  | some printer =>
    cases printer with
    | fixed => exact hinges_never (built_ok _) fun h => by cases h
    | failing => exact hinges_never (built_ok _) fun h => by cases h
    | standard =>
      obtain ⟨herr, hok⟩ := w.printPart_of_reach .node
      refine Hinges.congr ?_ (iff_of_true trivial rfl)
      refine hinges_of_resolve (fun p h => ?_) fun id v h => ?_
      · rw [printAfter, herr p h]
        rfl
      · obtain ⟨text, ht⟩ := hok id v h
        rw [printAfter, ht]
        exact built_ok _

theorem hinges_stamp (w : World) : w.Hinges w.printers.Ask [] w.stamp := by
  cases ht : w.printers.time with
  | none =>
    refine (hinges_stamp_node "" (by rw [ht]; rfl)).congr ?_
    simp only [Printers.Ask, ht, reduceCtorEq, false_or, ne_eq, not_false_eq_true, true_and]
  | some printer =>
    cases printer with
    | fixed =>
      refine (hinges_stamp_node "T" (by rw [ht]; rfl)).congr ?_
      simp only [Printers.Ask, ht, Option.some.injEq, reduceCtorEq, false_or, ne_eq,
        not_false_eq_true, true_and]
    | failing =>
      refine hinges_never ?_ ?_
      · rw [stamp, ht]
        exact built_ok _
      · simp only [Printers.Ask, ht, Option.some.injEq, reduceCtorEq, false_or, ne_eq,
          not_true_eq_false, false_and, not_false_eq_true]
    | standard =>
      obtain ⟨herr, hok⟩ := w.printPart_of_reach .time
      refine Hinges.congr ?_ (iff_of_true trivial (.inl ht))
      refine hinges_of_resolve (fun p h => ?_) fun id v h => ?_
      · rw [stamp, ht, printAfter, herr p h]
        rfl
      · obtain ⟨text, htext⟩ := hok id v h
        rw [stamp, ht, printAfter, htext]
        dsimp only
        -- the kernel that the first part got hold of is there for the second one
        have hb := built_printAfter (provided_of_reach h).built
          (if (some Printer.standard).isSome && w.printers.node.isSome then "" ++ text ++ " "
            else "" ++ text) .node w.printers.node
        split
        · exact hb.error ‹_›
        · exact built_ok _
        · exact built_ok _

theorem hinges_print (w : World) (call : PrinterCall) :
    w.Hinges ((Command.printing call).Needs w) [] (w.print call) := by
  cases call with
  | install part printer => cases part <;> exact hinges_never (built_ok _) id
  | installed => exact hinges_never (built_ok _) id
  | stamp => exact w.hinges_stamp
  | print part =>
    obtain ⟨herr, hok⟩ := w.printPart_of_reach part
    refine hinges_of_resolve (fun p h => ?_) fun id v h => ?_
    · rw [print, herr p h]
      rfl
    · obtain ⟨text, ht⟩ := hok id v h
      rw [print, ht]
      exact built_ok _

/-! ### Commands that never need a kernel -/

theorem built_write (w : World) (c : Config) : Built (w.write c).1 := by
  unfold write
  split
  · exact w.built_config.error ‹_›
  · exact built_ok _

theorem built_apply (w : World) (c : Config) : Built (w.apply c).1 := by
  unfold apply
  split
  · exact built_ok _
  · exact w.built_write c

theorem built_onConfig {f : Config → Except Panic Reply × World} (hf : ∀ c, Built (f c).1) :
    Built (w.onConfig f).1 := by
  unfold onConfig
  split
  · exact w.built_config.error ‹_›
  · exact hf _

theorem built_configure (w : World) (call : ConfigCall) : Built (w.configure call).1 := by
  cases call with
  | get => exact built_onConfig fun c => built_ok _
  | chooseKernel name =>
    rw [configure, chooseKernel]
    split
    · exact built_ok _
    · exact built_onConfig fun c => w.built_write _
  | chooseScheduler name =>
    rw [configure, chooseScheduler]
    split
    · exact built_ok _
    · exact built_onConfig fun c => w.built_write _
  | assign text =>
    refine built_onConfig fun c => ?_
    split
    · exact built_ok _
    · exact w.built_apply _
  | applyJson text =>
    rw [configure]
    split
    · exact built_ok _
    · exact w.built_apply _
  | reset => exact w.built_write _
  | load content =>
    rw [configure]
    unfold load
    split
    · split
      · exact built_ok _
      · rename_i c _
        have ha := w.built_apply c
        split <;> rename_i heq <;> rw [heq] at ha
        · exact built_ok _
        · exact built_ok _
        · exact ha.error rfl
    · exact built_ok _
  | select name =>
    rw [configure]
    split
    · rename_i h
      unfold select at h
      split at h
      · split at h
        · cases h
          exact w.built_config.error ‹_›
        · cases h
      · split at h
        · cases h
        · split at h <;> cases h
    · exact built_ok _
    · exact built_ok _

theorem built_enroll (w : World) (call : RegistryCall) : Built (w.enroll call).1 := by
  unfold enroll
  split
  · exact built_ok _
  · exact built_ok _
  · split <;> exact built_ok _
  · split <;> exact built_ok _
  · exact built_ok _
  · exact built_ok _

theorem built_install (w : World) (id : KernelId) : Built (w.install id) := by
  unfold install
  split
  · exact w.built_config.error ‹_›
  · split
    · exact built_ok _
    · split <;> exact built_ok _

theorem built_installFrom (w : World) (source : KernelSource) : Built (w.installFrom source).1 := by
  unfold installFrom
  split
  · split
    · exact (w.built_lookup _).error ‹_›
    · split
      · exact (w.built_install _).error ‹_›
      · exact built_ok _
      · exact built_ok _
  · dsimp only
    split
    · exact (built_install _ _).error ‹_›
    · exact built_ok _
    · exact built_ok _

/-! ### All commands -/

theorem hinges_attachNamed (w : World) (name : String) :
    w.Hinges ((Command.attachNamed name).Needs w) [] (w.perform (.attachNamed name)) := by
  rw [perform]
  cases hs : w.registry.scheduler name with
  | error e =>
    refine hinges_never (built_ok _) fun h => ?_
    obtain ⟨b, hb⟩ := Registry.scheduler_eq_ok_iff.2 h
    cases hs.symm.trans hb
  | ok b =>
    refine Hinges.congr (hinges_onReached fun _ _ _ => built_ok _) ?_
    exact iff_of_true rfl (Registry.scheduler_eq_ok_iff.1 ⟨b, hs⟩)

/-- **A command that runs nothing panics about a kernel that could not be built exactly if it needs
one and none can be built, and then leaves nothing behind but the action that it gives up.** -/
theorem hinges_perform (w : World) {c : Command} (hc : c.drives = false) :
    w.Hinges (c.Needs w) c.offered (w.perform c) := by
  cases c with
  | schedule t timing name a => exact w.hinges_schedule t timing name a
  | scheduleEach t delays name a =>
    have h := w.hinges_scheduleEach t name a 0 delays
    rw [perform]
    generalize w.scheduleEach t name a 0 delays = y at h
    obtain ⟨r, v⟩ := y
    cases r <;> exact h.map Reply.many
  | chain t tag delay length name =>
    cases length with
    | zero => exact hinges_never (built_ok _) fun h => h.2 rfl
    | succ left =>
      refine (w.hinges_schedule t (.after delay) name _).congr ?_
      simp only [Command.Needs, ne_eq, Nat.succ_ne_zero, not_false_eq_true, and_true]
  | stopAfter t delay name => exact w.hinges_stopAfter t delay name
  | delayLeft t name => exact w.hinges_delayLeft t _
  | stop t => exact hinges_onReached fun _ _ _ => built_ok _
  | attach t b => exact hinges_onReached fun _ _ _ => built_ok _
  | query t q => exact w.hinges_ask t q
  | attachNamed name => exact w.hinges_attachNamed name
  | observe s => exact w.hinges_note s
  | printing call => exact w.hinges_print call
  | capture =>
    exact (hinges_onReached (t := .facade) fun _ _ _ => built_ok _).congr (iff_of_true rfl trivial)
  | cancel t name => exact hinges_never (built_onFound fun _ _ => built_ok _) id
  | remove t name => exact hinges_never (built_onFound fun _ _ => built_ok _) id
  | isExpired t name => exact hinges_never (built_onFound fun _ _ => built_ok _) id
  | install source => exact hinges_never (w.built_installFrom source) id
  | config call => exact hinges_never (w.built_configure call) id
  | registry call => exact hinges_never (w.built_enroll call) id
  | trace call => cases call <;> exact hinges_never (built_ok _) id
  | panic message => exact hinges_never (fun e h => by cases h) id
  | backendName name =>
    refine hinges_never ?_ id
    rw [perform]
    split
    · exact (w.built_lookup _).error ‹_›
    · exact built_ok _
  | run | destroy | teardown | scenario => cases hc
  | idle | inspect | same | forge | build | isPopulated | observations | isStored =>
    exact hinges_never (built_ok _) id

end World

end EventSim
