import EventSim.Proofs.Kernel.Liveness
import EventSim.Proofs.World.Requests

/-!
# What commands panic about

A command can end with a panic because a kernel cannot be had, because the environment is faulty or
because an action gives up.  **In a sound world no command that runs nothing panics about virtual
time** (`timely_perform`): time is calculated with when a handle is asked for the delay that is
left, and the handles that a program has are known to the kernels that have issued them.
-/

namespace EventSim

/-- A panic about virtual time. -/
def Panic.AboutTime : Panic → Prop
  | .overflow _ | .clockWentBack => True
  | _ => False

/-- An outcome that is no panic about virtual time. -/
def Timely {ρ : Type} : Except Panic ρ → Prop
  | .ok _ => True
  | .error p => ¬ p.AboutTime

/-- The delay that is left can be told of every handle that the kernel knows, and of those of other
kernels. -/
theorem Kernel.Sound.timely_delayLeft {α : Type} {k : Kernel α} {h : Handle} (s : k.Sound)
    (hk : k.Issued h → k.Knows h) : Timely (k.delayLeft h) := by
  cases hx : k.isExpired h with
  | true =>
    rw [delayLeft_of_isExpired hx]
    trivial
  | false =>
    obtain ⟨left, hleft⟩ := s.delayLeft_of_live (hk (isExpired_eq_false.1 hx).1) hx
    rw [hleft]
    trivial

namespace World

variable {w v : World} {id : KernelId} {t : Target} {c : Command} {h : Handle} {ρ τ : Type}
  {r : Except Panic ρ} {p : Panic}

/-- A panic that is passed on. -/
theorem timely_error (hr : Timely r) (h : r = .error p) : Timely (.error p : Except Panic τ) := by
  rw [h] at hr
  exact hr

/-! ### Resolution -/

theorem timely_config (w : World) : Timely w.config := by
  unfold config
  split
  · trivial
  · split
    · trivial
    · exact id

theorem timely_lookup (w : World) (name : KernelName) : Timely (w.lookup name) := by
  unfold lookup
  split
  · trivial
  · exact id

theorem timely_construct (w : World) : Timely w.construct := by
  unfold construct
  split
  · exact timely_error w.timely_config ‹_›
  · split
    · exact id
    · split
      · exact id
      · trivial

theorem timely_reach (w : World) (t : Target) : Timely (w.reach t) := by
  unfold reach resolve
  split
  · split
    · trivial
    · exact w.timely_construct
  · split
    · exact timely_error (w.timely_lookup _) ‹_›
    · trivial

theorem timely_find (w : World) (t : Target) : Timely (w.find t) := by
  unfold find
  split
  · trivial
  · split
    · exact timely_error (w.timely_lookup _) ‹_›
    · trivial

theorem timely_nowOf (w : World) (t : Target) : Timely (w.nowOf t) := by
  unfold nowOf
  split
  · exact timely_error (w.timely_reach t) ‹_›
  · trivial

theorem timely_contextOf (w : World) (t : Target) : Timely (w.contextOf t) := by
  unfold contextOf
  split
  · exact timely_error (w.timely_reach t) ‹_›
  · trivial

theorem timely_onReached {f : KernelId → Engine Action → World → Except Panic Reply × World}
    (hf : ∀ id v e, w.reach t = .ok (id, v) → v.engine? id = some e → Timely (f id e v).1) :
    Timely (w.onReached t f).1 := by
  unfold onReached
  split
  · exact timely_error (w.timely_reach t) ‹_›
  · split
    · trivial
    · exact hf _ _ _ ‹_› ‹_›

theorem timely_onFound {without : Reply}
    {f : KernelId → Engine Action → Except Panic Reply × World}
    (hf : ∀ id e, Timely (f id e).1) : Timely (w.onFound t without f).1 := by
  unfold onFound
  split
  · exact timely_error (w.timely_find t) ‹_›
  · trivial
  · split
    · trivial
    · exact hf _ _

/-! ### The delay that is left -/

theorem handles_attach (w : World) (id : KernelId) (b : Backend) :
    (w.attach id b).handles = w.handles := by
  unfold attach
  split
  · rfl
  · dsimp only
    split <;> rfl

/-- Getting hold of a kernel loses no handle. -/
theorem handles_of_building (h : Evolves Building w v) : v.handles = w.handles := by
  refine h.keeps (I := fun v => v.handles = w.handles) (fun v x v' hx hb hv => ?_) rfl
  cases hx with
  | aside ha => exact ha.handles.trans hv
  | made => exact hv
  | occupied => exact (handles_attach _ _ _).trans hv
  | _ => exact hb.elim

/-- A handle of the program is asked for the delay that is left. -/
theorem timely_delayLeft (s : w.Sound) (t : Target) (name : HandleName) :
    Timely (w.delayLeft t (w.handle name)).1 := by
  refine timely_onReached fun id v e hr he => ?_
  have hb := evolves_reach hr
  have hv := (s.building hb).1
  cases e with
  | fixed => trivial
  | builtIn watched k =>
    have hkeeps : v.Keeps (w.handle name) := by
      have hk := w.keeps_handle name
      rwa [Keeps, ← handles_of_building hb] at hk
    have hk := (hv.kernels he).timely_delayLeft (hv.knows he hkeeps)
    dsimp only [Engine.delayLeft]
    split
    · exact timely_error hk ‹_›
    · trivial
    · trivial

/-! ### Other calls -/

theorem timely_schedule (w : World) (t : Target) (timing : Timing) (name : HandleName)
    (a : Action) : Timely (w.schedule t timing name a).1 := by
  unfold schedule
  split
  · exact timely_error (w.timely_reach t) ‹_›
  · split
    · trivial
    · dsimp only
      split <;> trivial

theorem timely_scheduleEach (t : Target) (name : Option HandleName) (a : Action)
    (delays : List Time) (w : World) (i : Nat) : Timely (w.scheduleEach t name a i delays).1 := by
  induction delays generalizing w i with
  | nil => trivial
  | cons delay rest ih =>
    have hs := w.timely_schedule t (.after delay)
      (name.getD (.word ((a.numbered i).tag.getD ""))) (a.numbered i)
    unfold scheduleEach
    dsimp only
    split <;> rename_i heq <;> rw [heq] at hs
    · exact hs
    · have hr := ih ‹World› (i + 1)
      split <;> rename_i heq' <;> rw [heq'] at hr
      · exact hr
      · trivial

theorem timely_stopAfter (w : World) (t : Target) (delay : Time) (name : HandleName) :
    Timely (w.stopAfter t delay name).1 := by
  refine timely_onReached fun _ _ _ _ _ => ?_
  split <;> trivial

theorem timely_ask (w : World) (t : Target) (q : Query) : Timely (w.ask t q).1 := by
  unfold ask
  split
  · exact timely_onFound fun _ _ => trivial
  · exact timely_onReached fun _ _ _ _ _ => trivial

theorem timely_write (w : World) (c : Config) : Timely (w.write c).1 := by
  unfold write
  split
  · exact timely_error w.timely_config ‹_›
  · trivial

theorem timely_apply (w : World) (c : Config) : Timely (w.apply c).1 := by
  unfold World.apply
  split
  · trivial
  · exact w.timely_write c

theorem timely_onConfig {f : Config → Except Panic Reply × World} (hf : ∀ c, Timely (f c).1) :
    Timely (w.onConfig f).1 := by
  unfold onConfig
  split
  · exact timely_error w.timely_config ‹_›
  · exact hf _

theorem timely_chooseScheduler (w : World) (name : String) :
    Timely (w.chooseScheduler name).1 := by
  unfold chooseScheduler
  split
  · trivial
  · exact timely_onConfig fun _ => w.timely_write _

theorem timely_configure (w : World) (call : ConfigCall) : Timely (w.configure call).1 := by
  cases call with
  | get => exact timely_onConfig fun _ => trivial
  | chooseKernel name =>
    rw [configure, chooseKernel]
    split
    · trivial
    · exact timely_onConfig fun _ => w.timely_write _
  | chooseScheduler name => exact w.timely_chooseScheduler name
  | assign text =>
    refine timely_onConfig fun _ => ?_
    split
    · trivial
    · exact w.timely_apply _
  | applyJson text =>
    rw [configure]
    split
    · trivial
    · exact w.timely_apply _
  | reset => exact w.timely_write _
  | load content =>
    rw [configure]
    unfold load
    split
    · split
      · trivial
      · rename_i c _
        have h := w.timely_apply c
        split <;> rename_i ha <;> rw [ha] at h
        · trivial
        · trivial
        · exact h
    · trivial
  | select name =>
    rw [configure]
    split
    · rename_i hs
      unfold select at hs
      split at hs
      · split at hs <;> cases hs
        exact timely_error w.timely_config ‹_›
      · split at hs
        · cases hs
        · split at hs <;> cases hs
    · trivial
    · trivial

theorem timely_enroll (w : World) (call : RegistryCall) : Timely (w.enroll call).1 := by
  cases call with
  | lookupKernel name | lookupScheduler name =>
    rw [enroll]
    split <;> trivial
  | _ => trivial

theorem timely_install (w : World) (id : KernelId) : Timely (w.install id) := by
  unfold install
  split
  · exact timely_error w.timely_config ‹_›
  · split
    · trivial
    · split <;> trivial

theorem timely_installFrom (w : World) (source : KernelSource) :
    Timely (w.installFrom source).1 := by
  cases source with
  | held name =>
    rw [installFrom]
    split
    · exact timely_error (w.timely_lookup name) ‹_›
    · split
      · exact timely_error (w.timely_install _) ‹_›
      · trivial
      · trivial
  | fresh spec =>
    rw [installFrom]
    dsimp only
    split
    · exact timely_error (timely_install _ _) ‹_›
    · trivial
    · trivial

/-! ### Stamps and notes -/

theorem timely_printPart (w : World) (part : StampPart) (printer : Printer) :
    Timely (w.printPart part printer) := by
  unfold printPart
  split
  · split
    · split
      · exact timely_error (w.timely_nowOf .facade) ‹_›
      · trivial
    · split
      · exact timely_error (w.timely_contextOf .facade) ‹_›
      · trivial
  · split <;> trivial
  · trivial

theorem timely_printAfter (w : World) (before : String) (part : StampPart)
    (printer : Option Printer) : Timely (w.printAfter before part printer) := by
  unfold printAfter
  split
  · trivial
  · split
    · exact timely_error (w.timely_printPart _ _) ‹_›
    · trivial
    · trivial

theorem timely_stamp (w : World) : Timely w.stamp.1 := by
  unfold stamp
  dsimp only
  split
  · exact timely_error (w.timely_printAfter _ _ _) ‹_›
  · trivial
  · split
    · exact timely_error (timely_printAfter _ _ _ _) ‹_›
    · trivial
    · trivial

theorem timely_print (w : World) (call : PrinterCall) : Timely (w.print call).1 := by
  cases call with
  | install part printer => cases part <;> trivial
  | installed => trivial
  | stamp => exact w.timely_stamp
  | print part =>
    rw [print]
    split
    · exact timely_error (w.timely_printPart _ _) ‹_›
    · trivial

theorem timely_note (w : World) (s : Sighting) : Timely (w.note s).1 := by
  cases s with
  | number n | label s => trivial
  | now | nowAnd i =>
    rw [note]
    dsimp only
    split
    · exact timely_error (w.timely_nowOf .facade) ‹_›
    · trivial
  | context =>
    rw [note]
    dsimp only
    split
    · exact timely_error (w.timely_contextOf .facade) ‹_›
    · trivial

/-- **A command that runs nothing does not panic about virtual time.** -/
theorem timely_perform (s : w.Sound) (c : Command) : Timely (w.perform c).1 := by
  cases c with
  | schedule t timing name a => exact w.timely_schedule t timing name a
  | scheduleEach t delays name a =>
    have h := timely_scheduleEach t name a delays w 0
    rw [perform]
    split <;> rename_i hs <;> rw [hs] at h
    · exact h
    · trivial
  | chain t tag delay length name =>
    cases length with
    | zero => trivial
    | succ left => exact w.timely_schedule t _ name _
  | stopAfter t delay name => exact w.timely_stopAfter t delay name
  | cancel | remove | isExpired => exact timely_onFound fun _ _ => trivial
  | delayLeft t name => exact timely_delayLeft s t name
  | stop | attach | capture => exact timely_onReached fun _ _ _ _ _ => trivial
  | query t q => exact w.timely_ask t q
  | attachNamed name =>
    rw [perform]
    split
    · trivial
    · exact timely_onReached fun _ _ _ _ _ => trivial
  | install source => exact w.timely_installFrom source
  | config call => exact w.timely_configure call
  | registry call => exact w.timely_enroll call
  | printing call => exact w.timely_print call
  | observe s => exact w.timely_note s
  | backendName name =>
    rw [perform]
    split
    · exact timely_error (w.timely_lookup name) ‹_›
    · trivial
  | panic message => exact id
  | trace call => cases call <;> trivial
  | _ => trivial

end World

end EventSim
