import EventSim.Perform
import EventSim.Proofs.Kernel.Consistent

/-!
# What happens in a world

Everything that a call does to a world is a sequence of happenings: a kernel is made, a kernel does
a deed, a handle is saved, a backend is registered, the slot is taken or cleared, or the printers
change.  All else that a call touches, such as the journal or the configuration, is `aside`: it
bears on none of these.

`World.Happens` says what each happening makes of a world and what it rests on, `World.Goes` strings
happenings together, and `World.Evolves P` says that a world comes from another one by happenings
that all satisfy `P`.  `evolves_perform` is the specification of all commands that run no action: a
command brings nothing about but what `Command.Brings` grants it.  What is to hold in every world is
therefore to be checked for the happenings alone.
-/

namespace EventSim

/-- What can happen in a world. -/
inductive Happening where
  | aside
  | made (spec : KernelSpec)
  | did (id : KernelId) (d : Deed Action)
  /-- The handle of no kernel was saved. -/
  | blank
  /-- A handle was put together that no kernel issued. -/
  | forged
  | enlisted (b : Backend)
  /-- A kernel was put into the empty slot and made ready. -/
  | occupied (id : KernelId) (b : Backend)
  /-- A scheduler was attached by its registered name. -/
  | configured (id : KernelId) (b : Backend)
  | vacated
  | unprinted
  | printed

namespace World

variable {w w' w'' : World} {id : KernelId} {x : Happening} {P Q : Happening → Prop}

/-- The worlds agree in all that happenings bear on. -/
structure Aside (w w' : World) : Prop where
  engines : w'.engines = w.engines
  slot : w'.slot = w.slot
  printers : w'.printers = w.printers
  handles : w'.handles = w.handles
  schedulers : w'.registry.schedulers = w.registry.schedulers

/-- The handle is saved under some name, or it is the one that no kernel issues. -/
def Keeps (w : World) (h : Handle) : Prop := h = .none ∨ ∃ p ∈ w.handles, p.2 = h

/-- Through a handle that a program has, if the deed withdraws an event. -/
def Permits (w : World) : Deed Action → Prop
  | .removed h | .cancelled h => w.Keeps h
  | _ => True

/-- The world `w` becomes `w'` by a happening. -/
inductive Happens : World → Happening → World → Prop
  | aside {w w' : World} : w.Aside w' → Happens w .aside w'
  | made (w : World) (spec : KernelSpec) :
      Happens w (.made spec)
        { w with engines := w.engines ++ [Engine.make w.engines.length spec] }
  | did {w : World} {id : KernelId} {watched : Bool} {k k' : Kernel Action} {d : Deed Action} :
      w.engine? id = some (.builtIn watched k) → k.Does d k' → w.Permits d →
      Happens w (.did id d) (w.setEngine id (.builtIn watched k'))
  | issued {w : World} {id : KernelId} {watched : Bool} {k k' : Kernel Action} {d : Deed Action}
      {h : Handle} (name : HandleName) :
      w.engine? id = some (.builtIn watched k) → k.Issues d h k' →
      Happens w (.did id d) ((w.setEngine id (.builtIn watched k')).save name h)
  | blank (w : World) (name : HandleName) : Happens w .blank (w.save name .none)
  | forged (w : World) (name : HandleName) (h : Handle) : Happens w .forged (w.save name h)
  | enlisted (w : World) (name : String) (b : Backend) :
      Happens w (.enlisted b)
        { w with
          registry := { w.registry with
            schedulers := NameTable.register name b w.registry.schedulers } }
  | occupied {w : World} {id : KernelId} {name : String} {b : Backend} :
      w.slot = none → w.registry.scheduler name = .ok b →
      Happens w (.occupied id b) (w.occupy id b)
  | configured {w : World} {id : KernelId} {name : String} {b : Backend} :
      w.registry.scheduler name = .ok b → Happens w (.configured id b) (w.attach id b)
  | vacated (w : World) : Happens w .vacated { w with slot := none }
  | unprinted (w : World) : Happens w .unprinted { w with printers := .none }
  | printed (w : World) (p : Printers) : Happens w .printed { w with printers := p }

/-- The world `w` becomes `w'` by happenings, one after the other. -/
inductive Goes : World → List Happening → World → Prop
  | nil (w : World) : Goes w [] w
  | cons {w w' w'' : World} {x : Happening} {l : List Happening} :
      Happens w x w' → Goes w' l w'' → Goes w (x :: l) w''

theorem Goes.append {l l' : List Happening} (h : w.Goes l w') (g : w'.Goes l' w'') :
    w.Goes (l ++ l') w'' := by
  induction h with
  | nil => exact g
  | cons hx _ ih => exact .cons hx (ih g)

/-- The world `w` becomes `w'` by happenings that all satisfy `P`. -/
def Evolves (P : Happening → Prop) (w w' : World) : Prop := ∃ l, w.Goes l w' ∧ ∀ x ∈ l, P x

namespace Evolves

theorem refl (P : Happening → Prop) (w : World) : Evolves P w w :=
  ⟨[], .nil w, fun _ hx => by cases hx⟩

theorem single (h : w.Happens x w') (hx : P x) : Evolves P w w' :=
  ⟨[x], .cons h (.nil w'), fun y hy => by rwa [List.mem_singleton.1 hy]⟩

theorem trans (h : Evolves P w w') (g : Evolves P w' w'') : Evolves P w w'' := by
  obtain ⟨l, hl, hp⟩ := h
  obtain ⟨l', hl', hp'⟩ := g
  refine ⟨l ++ l', hl.append hl', fun x hx => ?_⟩
  rcases List.mem_append.1 hx with hx | hx
  · exact hp x hx
  · exact hp' x hx

theorem mono (h : Evolves P w w') (hpq : ∀ x, P x → Q x) : Evolves Q w w' := by
  obtain ⟨l, hl, hp⟩ := h
  exact ⟨l, hl, fun x hx => hpq x (hp x hx)⟩

theorem aside (hp : P .aside) (h : w.Aside w') : Evolves P w w' := single (.aside h) hp

/-- What each happening keeps, evolution keeps. -/
theorem keeps {I : World → Prop} (hstep : ∀ w x w', w.Happens x w' → P x → I w → I w')
    (h : Evolves P w w') (hw : I w) : I w' := by
  obtain ⟨l, hl, hp⟩ := h
  induction hl with
  | nil => exact hw
  | cons hx _ ih =>
    exact ih (hstep _ _ _ hx (hp _ List.mem_cons_self) hw)
      fun y hy => hp y (List.mem_cons_of_mem _ hy)

end Evolves

/-! ### Changes aside -/

theorem Aside.refl (w : World) : w.Aside w := ⟨rfl, rfl, rfl, rfl, rfl⟩

theorem Aside.trans (h : w.Aside w') (g : w'.Aside w'') : w.Aside w'' :=
  ⟨g.engines.trans h.engines, g.slot.trans h.slot, g.printers.trans h.printers,
    g.handles.trans h.handles, g.schedulers.trans h.schedulers⟩

theorem aside_log (w : World) (e : Entry) : w.Aside (w.log e) := ⟨rfl, rfl, rfl, rfl, rfl⟩

theorem aside_release (w : World) (a : Action) : w.Aside (w.release a) := by
  unfold release
  split
  · exact .refl w
  · exact aside_log w _

theorem aside_releaseAll (w : World) (l : List Action) : w.Aside (w.releaseAll l) := by
  induction l generalizing w with
  | nil => exact .refl w
  | cons a l ih => exact (aside_release w a).trans (ih (w.release a))

theorem aside_traced (w : World) (e : Engine Action) (timing : Timing) :
    w.Aside (w.traced e timing) := by
  cases timing <;> exact ⟨rfl, rfl, rfl, rfl, rfl⟩

/-! ### Kernels -/

theorem engine?_setEngine_self {e : Engine Action} (h : w.engine? id = some e)
    (e' : Engine Action) : (w.setEngine id e').engine? id = some e' := by
  obtain ⟨hi, -⟩ := List.getElem?_eq_some_iff.1 h
  exact List.getElem?_set_self hi

theorem engine?_setEngine_ne {j : KernelId} (e : Engine Action) (h : id ≠ j) :
    (w.setEngine id e).engine? j = w.engine? j := List.getElem?_set_ne h

theorem setEngine_of_engine? {e : Engine Action} (h : w.engine? id = some e) :
    w.setEngine id e = w := by
  obtain ⟨hi, rfl⟩ := List.getElem?_eq_some_iff.1 h
  have : w.engines.set id w.engines[id] = w.engines := List.set_getElem_self hi
  rw [setEngine, this]

/-- What a call does in order to have a kernel. -/
def Building : Happening → Prop
  | .aside | .made _ | .occupied .. => True
  | _ => False

theorem evolves_make (w : World) (spec : KernelSpec) : Evolves Building w (w.make spec).2 := by
  have hmade (v : World) : Evolves Building v
      { v with engines := v.engines ++ [Engine.make v.engines.length spec] } :=
    .single (.made v spec) trivial
  cases spec with
  | watched s => exact (Evolves.aside trivial (aside_log w _)).trans (hmade _)
  | builtIn s => exact hmade w
  | fixed now context s => exact hmade w

@[simp] theorem slot_make (w : World) (spec : KernelSpec) : (w.make spec).2.slot = w.slot := by
  cases spec <;> rfl

@[simp] theorem registry_make (w : World) (spec : KernelSpec) :
    (w.make spec).2.registry = w.registry := by
  cases spec <;> rfl

theorem evolves_construct (hs : w.slot = none) (h : w.construct = .ok (id, w')) :
    Evolves Building w w' := by
  unfold construct at h
  split at h
  · cases h
  · split at h
    · cases h
    · rename_i spec _
      split at h
      · cases h
      · rename_i b hb
        cases h
        have hslot := (slot_make w spec).trans hs
        rw [← registry_make w spec] at hb
        exact (evolves_make w spec).trans (.single (.occupied hslot hb) trivial)

theorem evolves_resolve (h : w.resolve = .ok (id, w')) : Evolves Building w w' := by
  unfold resolve at h
  split at h
  · cases h
    exact .refl _ _
  · rename_i hs
    exact evolves_construct hs h

theorem evolves_reach {t : Target} (h : w.reach t = .ok (id, w')) : Evolves Building w w' := by
  unfold reach at h
  split at h
  · exact evolves_resolve h
  · split at h
    · cases h
    · cases h
      exact .refl _ _

theorem evolves_nowOf {t : Target} {now : Time} (h : w.nowOf t = .ok (now, w')) :
    Evolves Building w w' := by
  unfold nowOf at h
  split at h
  · cases h
  · rename_i hr
    cases h
    exact evolves_reach hr

theorem evolves_contextOf {t : Target} {context : Context}
    (h : w.contextOf t = .ok (context, w')) : Evolves Building w w' := by
  unfold contextOf at h
  split at h
  · cases h
  · rename_i hr
    cases h
    exact evolves_reach hr

/-! ### What commands bring about -/

end World

namespace Command

/-- The actions that a command hands to a kernel. -/
def Carries : Command → Action → Prop
  | .schedule _ _ _ b, a => a = b
  | .scheduleEach _ _ _ b, a => ∃ i, a = b.numbered i
  | .chain t tag delay (left + 1) name, a => a = World.link t tag delay left name
  | _, _ => False

/-- The deeds that a command calls for. -/
def Calls (w : World) (c : Command) : Deed Action → Prop
  | .stored _ (.act a) => c.Carries a
  | .stored _ .halt => ∃ t delay name, c = .stopAfter t delay name
  | .registered e => c.Carries e.action
  | .removed h => ∃ t name, c = .remove t name ∧ h = w.handle name
  | .cancelled h => ∃ t name, c = .cancel t name ∧ h = w.handle name
  | .attached b => ∃ t, c = .attach t b
  | .stopped => ∃ t, c = .stop t
  | .began => ∃ t, c = .run t
  | _ => False

/-- What a command may bring about by itself, before any action runs. -/
def Brings (w : World) (c : Command) : Happening → Prop
  | .aside | .made _ | .occupied .. | .blank => True
  | .did _ d => c.Calls w d
  | .forged => ∃ source time uid context teardown name,
      c = .forge source time uid context teardown name
  | .enlisted b => ∃ name, c = .registry (.registerScheduler name b)
  | .configured .. => ∃ name, c = .attachNamed name
  | .printed => ∃ part printer, c = .printing (.install part printer)
  | .unprinted => c = .teardown ∨ ∃ request, c = .scenario request
  | .vacated => False

theorem brings_of_building {w : World} {c : Command} {x : Happening} (h : World.Building x) :
    c.Brings w x := by
  cases x <;> first | exact h | trivial

end Command

namespace World

variable {w w' : World} {id : KernelId} {x : Happening} {P : Happening → Prop}

theorem keeps_handle (w : World) (name : HandleName) : w.Keeps (w.handle name) := by
  unfold handle
  cases h : w.handles.lookup name with
  | none => exact .inl rfl
  | some g =>
    obtain ⟨l, l', hl, -⟩ := List.lookup_eq_some_iff.1 h
    exact .inr ⟨(name, g), by simp [hl], rfl⟩

/-! ### Calls on one kernel -/

theorem evolves_onReached {t : Target}
    {f : KernelId → Engine Action → World → Except Panic Reply × World}
    (hb : ∀ x, Building x → P x)
    (hf : ∀ id e v, v.engine? id = some e → Evolves P v (f id e v).2) :
    Evolves P w (w.onReached t f).2 := by
  unfold onReached
  split
  · exact .refl _ _
  · rename_i id v hr
    refine ((evolves_reach hr).mono hb).trans ?_
    split
    · exact .refl _ _
    · rename_i e he
      exact hf id e v he

theorem evolves_onFound {t : Target} {without : Reply}
    {f : KernelId → Engine Action → Except Panic Reply × World}
    (hf : ∀ id e, w.engine? id = some e → Evolves P w (f id e).2) :
    Evolves P w (w.onFound t without f).2 := by
  unfold onFound
  split
  · exact .refl _ _
  · exact .refl _ _
  · rename_i id _
    split
    · exact .refl _ _
    · rename_i e he
      exact hf id e he

theorem evolves_schedule {a : Action} (hb : ∀ x, Building x → P x) (hblank : P .blank)
    (hd : ∀ id d, Kernel.Accepts a d → P (.did id d)) (w : World) (t : Target) (timing : Timing)
    (name : HandleName) : Evolves P w (w.schedule t timing name a).2 := by
  have haside := hb .aside trivial
  unfold schedule
  split
  · exact .aside haside (aside_release w a)
  · rename_i id v hr
    refine ((evolves_reach hr).mono hb).trans ?_
    split
    · exact .refl _ _
    · rename_i e he
      dsimp only
      have hv : v.Aside (if t = .facade then v.traced e timing else v) := by
        split
        · exact aside_traced v e timing
        · exact .refl v
      refine (Evolves.aside haside hv).trans ?_
      generalize hu : (if t = .facade then v.traced e timing else v) = u at hv ⊢
      have heu : u.engine? id = some e := by
        rw [engine?, hv.engines]
        exact he
      cases e with
      | builtIn watched k =>
        cases hs : k.schedule timing a with
        | ok r =>
          obtain ⟨h, k'⟩ := r
          obtain ⟨d, ha, hi⟩ := Kernel.issues_of_schedule hs
          simp only [Engine.schedule, hs]
          exact .single (.issued name heu hi) (hd id d ha)
        | error error =>
          simp only [Engine.schedule, hs, setEngine_of_engine? heu]
          exact .aside haside (aside_releaseAll u [a])
      | fixed k =>
        simp only [Engine.schedule, setEngine_of_engine? heu]
        exact (Evolves.aside haside (aside_releaseAll u [a])).trans (.single (.blank _ name) hblank)

theorem evolves_scheduleEach {a : Action} (hb : ∀ x, Building x → P x) (hblank : P .blank)
    (hd : ∀ i id d, Kernel.Accepts (a.numbered i) d → P (.did id d)) (t : Target)
    (name : Option HandleName) (delays : List Time) (w : World) (i : Nat) :
    Evolves P w (w.scheduleEach t name a i delays).2 := by
  induction delays generalizing w i with
  | nil => exact .refl _ _
  | cons delay rest ih =>
    have h := evolves_schedule hb hblank (hd i) w t (.after delay)
      (name.getD (.word ((a.numbered i).tag.getD "")))
    unfold scheduleEach
    dsimp only
    split
    · rename_i hs
      rwa [hs] at h
    · rename_i r v hs
      rw [hs] at h
      have h' := h.trans (ih v (i + 1))
      split
      · rename_i hr
        rwa [hr] at h'
      · rename_i hr
        rwa [hr] at h'

theorem evolves_stopAfter (hb : ∀ x, Building x → P x) (hblank : P .blank)
    (hd : ∀ id key, P (.did id (.stored key .halt))) (w : World) (t : Target) (delay : Time)
    (name : HandleName) : Evolves P w (w.stopAfter t delay name).2 := by
  refine evolves_onReached hb fun id e v he => ?_
  cases e with
  | builtIn watched k =>
    cases hs : k.stopAfter delay with
    | ok r =>
      obtain ⟨h, k'⟩ := r
      obtain ⟨key, hi⟩ := Kernel.issues_of_stopAfter hs
      simp only [Engine.stopAfter, hs]
      exact .single (.issued name he hi) (hd id key)
    | error error =>
      simp only [Engine.stopAfter, hs, setEngine_of_engine? he]
      exact .refl _ _
  | fixed k =>
    simp only [Engine.stopAfter, setEngine_of_engine? he]
    exact .single (.blank v name) hblank

theorem evolves_remove {t : Target} {h : Handle} (haside : P .aside) (hk : w.Keeps h)
    (hd : ∀ id, P (.did id (.removed h))) : Evolves P w (w.remove t h).2 := by
  refine evolves_onFound fun id e he => ?_
  refine Evolves.trans ?_ (.aside haside (aside_releaseAll _ _))
  cases e with
  | builtIn watched k => exact .single (.did he (.removed k h) hk) (hd id)
  | fixed k =>
    simp only [Engine.remove, setEngine_of_engine? he]
    exact .refl _ _

theorem evolves_cancel {t : Target} {h : Handle} (haside : P .aside) (hk : w.Keeps h)
    (hd : ∀ id, P (.did id (.cancelled h))) : Evolves P w (w.cancel t h).2 := by
  refine evolves_onFound fun id e he => ?_
  refine Evolves.trans ?_ (.aside haside (aside_releaseAll _ _))
  cases e with
  | builtIn watched k => exact .single (.did he (.cancelled k h) hk) (hd id)
  | fixed k =>
    simp only [Engine.cancel, setEngine_of_engine? he]
    exact .refl _ _

theorem evolves_attach (haside : P .aside) {b : Backend} (hd : P (.did id (.attached b)))
    (w : World) : Evolves P w (w.attach id b) := by
  unfold attach
  split
  · exact .refl _ _
  · rename_i e he
    dsimp only
    have hv : w.Aside (if e.isWatched then w.report "set_scheduler" else w) := by
      split
      · exact aside_log w _
      · exact .refl w
    refine (Evolves.aside haside hv).trans ?_
    generalize (if e.isWatched then w.report "set_scheduler" else w) = u at hv ⊢
    have heu : u.engine? id = some e := by
      rw [engine?, hv.engines]
      exact he
    cases e with
    | builtIn watched k => exact .single (.did heu (.attached k b) trivial) hd
    | fixed k =>
      simp only [Engine.onKernel, setEngine_of_engine? heu]
      exact .refl _ _

theorem evolves_stop (hb : ∀ x, Building x → P x) (hd : ∀ id, P (.did id .stopped)) (w : World)
    (t : Target) :
    Evolves P w
      (w.onReached t fun id e w => (.ok .done, w.setEngine id (e.onKernel Kernel.stop))).2 := by
  refine evolves_onReached hb fun id e v he => ?_
  cases e with
  | builtIn watched k => exact .single (.did he (.stopped k) trivial) (hd id)
  | fixed k =>
    simp only [Engine.onKernel, setEngine_of_engine? he]
    exact .refl _ _

/-! ### Setting the stage -/

theorem aside_write (w : World) (c : Config) : w.Aside (w.write c).2 := by
  unfold write
  split <;> exact ⟨rfl, rfl, rfl, rfl, rfl⟩

theorem aside_apply (w : World) (c : Config) : w.Aside (w.apply c).2 := by
  unfold World.apply
  split
  · exact .refl w
  · exact aside_write w c

theorem aside_onConfig {f : Config → Except Panic Reply × World} (hf : ∀ c, w.Aside (f c).2) :
    w.Aside (w.onConfig f).2 := by
  unfold onConfig
  split
  · exact .refl w
  · exact hf _

theorem aside_chooseScheduler (w : World) (name : String) : w.Aside (w.chooseScheduler name).2 := by
  unfold chooseScheduler
  split
  · exact .refl w
  · exact aside_onConfig fun c => aside_write w _

theorem aside_chooseKernel (w : World) (name : String) : w.Aside (w.chooseKernel name).2 := by
  unfold chooseKernel
  split
  · exact .refl w
  · exact aside_onConfig fun c => aside_write w _

theorem aside_load (w : World) (content : FileContent) : w.Aside (w.load content).2 := by
  unfold load
  split
  · split
    · exact .refl w
    · rename_i c _
      have h := aside_apply w c
      split <;> rename_i ha <;> rwa [ha] at h
  · exact .refl w

theorem aside_configure (w : World) (call : ConfigCall) : w.Aside (w.configure call).2 := by
  cases call with
  | get => exact aside_onConfig fun c => .refl w
  | chooseKernel name => exact aside_chooseKernel w name
  | chooseScheduler name => exact aside_chooseScheduler w name
  | assign text =>
    refine aside_onConfig fun c => ?_
    split
    · exact .refl w
    · exact aside_apply w _
  | applyJson text =>
    rw [configure]
    split
    · exact .refl w
    · exact aside_apply w _
  | reset => exact aside_write w _
  | load content => exact aside_load w content
  | select name =>
    rw [configure]
    split <;> exact .refl w

theorem evolves_enroll (hb : ∀ x, Building x → P x) (w : World) (call : RegistryCall)
    (hd : ∀ name b, call = .registerScheduler name b → P (.enlisted b)) :
    Evolves P w (w.enroll call).2 := by
  cases call with
  | kernelNames => exact .refl _ _
  | schedulerNames => exact .refl _ _
  | lookupKernel name =>
    rw [enroll]
    split
    · exact .refl _ _
    · exact (evolves_make w _).mono hb
  | lookupScheduler name =>
    rw [enroll]
    split <;> exact .refl _ _
  | registerKernel name spec => exact .aside (hb _ trivial) ⟨rfl, rfl, rfl, rfl, rfl⟩
  | registerScheduler name b => exact .single (.enlisted w name b) (hd name b rfl)

/-! ### Printing, notes and lifecycle -/

theorem evolves_printPart {part : StampPart} {printer : Printer} {text : Option String}
    (h : w.printPart part printer = .ok (text, w')) : Evolves Building w w' := by
  unfold printPart at h
  split at h
  · split at h
    · split at h
      · cases h
      · rename_i hn
        cases h
        exact evolves_nowOf hn
    · split at h
      · cases h
      · rename_i hc
        cases h
        exact evolves_contextOf hc
  · split at h <;> cases h <;> exact .refl _ _
  · cases h
    exact .refl _ _

theorem evolves_printAfter {before : String} {part : StampPart} {printer : Option Printer}
    {text : Except String String} (h : w.printAfter before part printer = .ok (text, w')) :
    Evolves Building w w' := by
  unfold printAfter at h
  split at h
  · cases h
    exact .refl _ _
  · split at h
    · cases h
    all_goals
      rename_i hp
      cases h
      exact evolves_printPart hp

theorem evolves_stamp (w : World) : Evolves Building w w.stamp.2 := by
  unfold stamp
  dsimp only
  split
  · exact .refl _ _
  · rename_i h
    exact evolves_printAfter h
  · rename_i h
    refine (evolves_printAfter h).trans ?_
    split
    · exact .refl _ _
    all_goals
      rename_i g
      exact evolves_printAfter g

theorem evolves_print (hb : ∀ x, Building x → P x) (w : World) (call : PrinterCall)
    (hd : ∀ part printer, call = .install part printer → P .printed) :
    Evolves P w (w.print call).2 := by
  cases call with
  | install part printer =>
    cases part <;> exact .single (.printed w _) (hd _ printer rfl)
  | installed => exact .refl _ _
  | stamp => exact (evolves_stamp w).mono hb
  | print part =>
    rw [print]
    split
    · exact .refl _ _
    · rename_i h
      exact (evolves_printPart h).mono hb

theorem evolves_note (w : World) (s : Sighting) : Evolves Building w (w.note s).2 := by
  have hnote (v : World) (o : Observation) :
      Evolves Building v { v with observed := o :: v.observed } :=
    .aside trivial ⟨rfl, rfl, rfl, rfl, rfl⟩
  cases s with
  | number n => exact hnote w _
  | label s => exact hnote w _
  | now =>
    rw [note]
    dsimp only
    split
    · exact .refl _ _
    · rename_i h
      exact (evolves_nowOf h).trans (hnote _ _)
  | context =>
    rw [note]
    dsimp only
    split
    · exact .refl _ _
    · rename_i h
      exact (evolves_contextOf h).trans (hnote _ _)
  | nowAnd i =>
    rw [note]
    dsimp only
    split
    · exact .refl _ _
    · rename_i h
      exact (evolves_nowOf h).trans (hnote _ _)

theorem evolves_install (h : w.install id = .ok (.ok w')) : Evolves Building w w' := by
  unfold install at h
  split at h
  · cases h
  · split at h
    · cases h
    · rename_i b hb
      split at h
      · cases h
      · rename_i hs
        cases h
        exact .single (.occupied hs hb) trivial

theorem evolves_installFrom (w : World) (source : KernelSource) :
    Evolves Building w (w.installFrom source).2 := by
  cases source with
  | held name =>
    rw [installFrom]
    split
    · exact .refl _ _
    · split
      · exact .refl _ _
      · exact .refl _ _
      · rename_i h
        exact evolves_install h
  | fresh spec =>
    rw [installFrom]
    dsimp only
    refine (evolves_make w spec).trans ?_
    split
    · exact .refl _ _
    · exact .refl _ _
    · rename_i h
      exact evolves_install h

theorem evolves_build (w : World) (name : Option KernelName) (spec : KernelSpec) :
    Evolves Building w (w.build name spec).2 :=
  (evolves_make w spec).trans (.aside trivial ⟨rfl, rfl, rfl, rfl, rfl⟩)

theorem registry_attach (w : World) (id : KernelId) (b : Backend) :
    (w.attach id b).registry = w.registry := by
  unfold attach
  split
  · rfl
  · dsimp only
    split <;> rfl

/-- Whoever wants a kernel leaves the registered schedulers alone. -/
theorem scheduler_of_building (h : Evolves Building w w') (name : String) :
    w'.registry.scheduler name = w.registry.scheduler name := by
  refine h.keeps (I := fun v => v.registry.scheduler name = w.registry.scheduler name)
    (fun v x v' hx hb hv => ?_) rfl
  cases hx with
  | aside ha => rw [← hv, Registry.scheduler, Registry.scheduler, ha.schedulers]
  | made => exact hv
  | occupied => exact (congrArg (Registry.scheduler · name) (registry_attach _ _ _)).trans hv
  | _ => cases hb

theorem evolves_attachNamed (hb : ∀ x, Building x → P x) (hd : ∀ id b, P (.configured id b))
    (w : World) (name : String) : Evolves P w (w.perform (.attachNamed name)).2 := by
  rw [perform]
  split
  · exact .refl _ _
  · rename_i b hs
    unfold onReached
    split
    · exact .refl _ _
    · rename_i id v hr
      have hreg : v.registry.scheduler name = .ok b :=
        (scheduler_of_building (evolves_reach hr) name).trans hs
      refine ((evolves_reach hr).mono hb).trans ?_
      split
      · exact .refl _ _
      · exact .single (.configured hreg) (hd id b)

theorem evolves_perform (w : World) (c : Command) : Evolves (c.Brings w) w (w.perform c).2 := by
  have hb : ∀ x, Building x → c.Brings w x := fun x => Command.brings_of_building
  cases c with
  | schedule t timing name a =>
    refine evolves_schedule hb trivial (fun id d hd => ?_) w t timing name
    cases hd <;> rfl
  | scheduleEach t delays name a =>
    have h := evolves_scheduleEach (a := a) hb trivial (fun i id d hd => ?_) t name delays w 0
    · rw [perform]
      split <;> rename_i hs <;> rwa [hs] at h
    · cases hd <;> exact ⟨i, rfl⟩
  | chain t tag delay length name =>
    cases length with
    | zero => exact .refl _ _
    | succ left =>
      refine evolves_schedule hb trivial (fun id d hd => ?_) w t (.after delay) name
      cases hd <;> rfl
  | stopAfter t delay name =>
    exact evolves_stopAfter hb trivial (fun id key => ⟨t, delay, name, rfl⟩) w t delay name
  | cancel t name =>
    exact evolves_cancel trivial (keeps_handle w name) fun id => ⟨t, name, rfl, rfl⟩
  | remove t name =>
    exact evolves_remove trivial (keeps_handle w name) fun id => ⟨t, name, rfl, rfl⟩
  | isExpired t name => exact evolves_onFound fun id e he => .refl _ _
  | delayLeft t name =>
    refine evolves_onReached hb fun id e v he => ?_
    split <;> exact .refl _ _
  | stop t => exact evolves_stop hb (fun id => ⟨t, rfl⟩) w t
  | attach t b => exact evolves_onReached hb fun id e v he => evolves_attach trivial ⟨t, rfl⟩ v
  | query t q =>
    cases q with
    | systemId => exact evolves_onFound fun id e he => .refl _ _
    | _ => exact evolves_onReached hb fun id e v he => .refl _ _
  | forge source time uid context teardown name =>
    exact .single (.forged w name _) ⟨_, _, _, _, _, _, rfl⟩
  | build name spec => exact (evolves_build w name spec).mono hb
  | attachNamed name => exact evolves_attachNamed hb (fun id b => ⟨name, rfl⟩) w name
  | install source => exact (evolves_installFrom w source).mono hb
  | config call => exact .aside trivial (aside_configure w call)
  | registry call => exact evolves_enroll hb w call fun name b h => ⟨name, h ▸ rfl⟩
  | printing call => exact evolves_print hb w call fun part p h => ⟨part, p, h ▸ rfl⟩
  | trace call => cases call <;> exact .aside trivial ⟨rfl, rfl, rfl, rfl, rfl⟩
  | observe s => exact (evolves_note w s).mono hb
  | capture => exact evolves_onReached hb fun id e v he => .refl _ _
  | backendName name =>
    rw [perform]
    split <;> exact .refl _ _
  | _ => exact .refl _ _

end World

end EventSim
