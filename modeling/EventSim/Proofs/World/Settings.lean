import EventSim.Proofs.World.Requests

/-!
# What commands make of the settings

The settings of a world are what its configuration comes from, the registry and the trace.  Nothing
that is done to kernels, handles, printers or the journal touches them: `settings_perform` says that
**a command that runs nothing leaves the settings alone, unless it sets one of them**, the trace of
scheduling calls apart.
-/

namespace EventSim

/-- What a session is set up with, and the trace that it keeps. -/
structure Settings where
  environment : Option String
  written : Option Config
  registry : Registry
  trace : Trace

namespace World

/-- The settings of a world. -/
def settings (w : World) : Settings := ⟨w.environment, w.written, w.registry, w.trace⟩

variable {w v : World} {id : KernelId} {t : Target}

theorem trace_of_settings (h : v.settings = w.settings) : v.trace = w.trace :=
  (Settings.mk.inj h).2.2.2

/-! ### Journal and kernels -/

@[simp] theorem settings_log (w : World) (e : Entry) : (w.log e).settings = w.settings := rfl

@[simp] theorem settings_release (w : World) (a : Action) : (w.release a).settings = w.settings := by
  unfold release
  split <;> rfl

@[simp] theorem settings_releaseAll (w : World) (l : List Action) :
    (w.releaseAll l).settings = w.settings := by
  induction l generalizing w with
  | nil => rfl
  | cons a l ih => exact (ih (w.release a)).trans (settings_release w a)

@[simp] theorem settings_setEngine (w : World) (id : KernelId) (e : Engine Action) :
    (w.setEngine id e).settings = w.settings := rfl

@[simp] theorem settings_save (w : World) (name : HandleName) (h : Handle) :
    (w.save name h).settings = w.settings := rfl

@[simp] theorem settings_make (w : World) (spec : KernelSpec) :
    (w.make spec).2.settings = w.settings := by
  cases spec <;> rfl

@[simp] theorem settings_build (w : World) (name : Option KernelName) (spec : KernelSpec) :
    (w.build name spec).2.settings = w.settings := settings_make w spec

@[simp] theorem settings_attach (w : World) (id : KernelId) (b : Backend) :
    (w.attach id b).settings = w.settings := by
  unfold attach
  split
  · rfl
  · dsimp only
    split <;> rfl

@[simp] theorem settings_abandon (w : World) (id : KernelId) :
    (w.abandon id).settings = w.settings := by
  unfold abandon
  split
  · rfl
  · split
    · rfl
    · exact settings_releaseAll w _

@[simp] theorem settings_occupy (w : World) (id : KernelId) (b : Backend) :
    (w.occupy id b).settings = w.settings := settings_attach { w with slot := some id } id b

/-! ### Resolution -/

theorem settings_reach (h : w.reach t = .ok (id, v)) : v.settings = w.settings := by
  unfold reach resolve construct at h
  split at h
  · split at h
    · cases h
      rfl
    · split at h
      · cases h
      · split at h
        · cases h
        · split at h
          · cases h
          · cases h
            exact (settings_occupy _ _ _).trans (settings_make w _)
  · split at h <;> cases h
    rfl

theorem settings_nowOf {now : Time} (h : w.nowOf t = .ok (now, v)) : v.settings = w.settings := by
  unfold nowOf at h
  split at h <;> cases h
  exact settings_reach ‹_›

theorem settings_contextOf {context : Context} (h : w.contextOf t = .ok (context, v)) :
    v.settings = w.settings := by
  unfold contextOf at h
  split at h <;> cases h
  exact settings_reach ‹_›

theorem settings_install {w' : World} (h : w.install id = .ok (.ok w')) :
    w'.settings = w.settings := by
  unfold install at h
  split at h
  · cases h
  · split at h
    · cases h
    · split at h <;> cases h
      exact settings_occupy w id _

theorem settings_onReached {f : KernelId → Engine Action → World → Except Panic Reply × World}
    (hf : ∀ id e v, (f id e v).2.settings = v.settings) :
    (w.onReached t f).2.settings = w.settings := by
  unfold onReached
  split
  · rfl
  · have hr := settings_reach ‹_›
    split
    · exact hr
    · exact (hf _ _ _).trans hr

theorem settings_onFound {without : Reply}
    {f : KernelId → Engine Action → Except Panic Reply × World}
    (hf : ∀ id e, (f id e).2.settings = w.settings) :
    (w.onFound t without f).2.settings = w.settings := by
  unfold onFound
  split
  · rfl
  · rfl
  · split
    · rfl
    · exact hf _ _

/-! ### Printers and notes -/

theorem settings_printPart {part : StampPart} {printer : Printer} {text : Option String}
    (h : w.printPart part printer = .ok (text, v)) : v.settings = w.settings := by
  unfold printPart at h
  split at h
  · split at h <;> split at h <;> cases h
    · exact settings_nowOf ‹_›
    · exact settings_contextOf ‹_›
  · split at h <;> cases h <;> rfl
  · cases h
    rfl

theorem settings_printAfter {before : String} {part : StampPart} {printer : Option Printer}
    {text : Except String String} (h : w.printAfter before part printer = .ok (text, v)) :
    v.settings = w.settings := by
  unfold printAfter at h
  split at h
  · cases h
    rfl
  · split at h <;> cases h <;> exact settings_printPart ‹_›

theorem settings_stamp (w : World) : w.stamp.2.settings = w.settings := by
  unfold stamp
  dsimp only
  split
  · rfl
  · exact settings_printAfter ‹_›
  · rename_i v htime
    have ht := settings_printAfter htime
    split
    · exact ht
    · exact (settings_printAfter ‹_›).trans ht
    · exact (settings_printAfter ‹_›).trans ht

theorem settings_print (w : World) (call : PrinterCall) :
    (w.print call).2.settings = w.settings := by
  cases call with
  | install part printer => cases part <;> rfl
  | installed => rfl
  | stamp => exact settings_stamp w
  | print part =>
    rw [print]
    split
    · rfl
    · exact settings_printPart ‹_›

theorem settings_note (w : World) (s : Sighting) : (w.note s).2.settings = w.settings := by
  cases s with
  | number n => rfl
  | label s => rfl
  | now | nowAnd i =>
    rw [note]
    dsimp only
    split
    · rfl
    · rename_i hn
      have h := settings_nowOf hn
      exact h
  | context =>
    rw [note]
    dsimp only
    split
    · rfl
    · rename_i hc
      have h := settings_contextOf hc
      exact h

/-! ### Commands -/

theorem settings_remove (w : World) (t : Target) (h : Handle) :
    (w.remove t h).2.settings = w.settings := settings_onFound fun _ _ => settings_releaseAll _ _

theorem settings_cancel (w : World) (t : Target) (h : Handle) :
    (w.cancel t h).2.settings = w.settings := settings_onFound fun _ _ => settings_releaseAll _ _

theorem settings_stopAfter (w : World) (t : Target) (delay : Time) (name : HandleName) :
    (w.stopAfter t delay name).2.settings = w.settings :=
  settings_onReached fun _ _ _ => by split <;> rfl

theorem settings_delayLeft (w : World) (t : Target) (h : Handle) :
    (w.delayLeft t h).2.settings = w.settings :=
  settings_onReached fun _ _ _ => by split <;> rfl

theorem settings_installFrom (w : World) (source : KernelSource) :
    (w.installFrom source).2.settings = w.settings := by
  cases source with
  | held name =>
    rw [installFrom]
    split
    · rfl
    · split
      · rfl
      · rfl
      · exact settings_install ‹_›
  | fresh spec =>
    rw [installFrom]
    dsimp only
    split
    · exact settings_make w spec
    · exact settings_make w spec
    · exact (settings_install ‹_›).trans (settings_make w spec)

/-- Scheduling leaves the settings alone, the trace apart. -/
theorem settings_schedule (w : World) (t : Target) (timing : Timing) (name : HandleName)
    (a : Action) :
    ∃ trace, (w.schedule t timing name a).2.settings = { w.settings with trace := trace } := by
  unfold schedule
  split
  · exact ⟨w.trace, settings_release w a⟩
  · rename_i id v hr
    rw [← settings_reach hr]
    split
    · exact ⟨v.trace, rfl⟩
    · rename_i e _
      obtain ⟨trace, htrace⟩ := exists_trace v t e timing
      refine ⟨trace, ?_⟩
      rw [htrace]
      dsimp only
      have hu (l : List Action) (e' : Engine Action) :
          (({ v with trace := trace }.setEngine id e').releaseAll l).settings =
            { v.settings with trace := trace } := settings_releaseAll _ l
      split
      · rw [settings_save, hu]
      · exact hu _ _

end World

namespace Command

/-- The command sets something up: the configuration, the registry or the trace. -/
def Sets : Command → Prop
  | .config .get | .config (.select _) => False
  | .config _ | .registry (.registerKernel ..) | .registry (.registerScheduler ..) => True
  | .trace (.start _) | .trace .clear => True
  | _ => False

/-- The command schedules actions. -/
def Schedules : Command → Prop
  | .schedule .. | .scheduleEach .. | .chain .. => True
  | _ => False

end Command

namespace World

theorem settings_scheduleEach (t : Target) (name : Option HandleName) (a : Action)
    (delays : List Time) (w : World) (i : Nat) : ∃ trace,
      (w.scheduleEach t name a i delays).2.settings = { w.settings with trace := trace } := by
  induction delays generalizing w i with
  | nil => exact ⟨w.trace, rfl⟩
  | cons delay rest ih =>
    obtain ⟨trace, hs⟩ := w.settings_schedule t (.after delay)
      (name.getD (.word ((a.numbered i).tag.getD ""))) (a.numbered i)
    unfold scheduleEach
    dsimp only
    split <;> rename_i heq <;> rw [heq] at hs
    · exact ⟨trace, hs⟩
    · rename_i r v
      obtain ⟨trace', hv⟩ := ih v (i + 1)
      rw [show v.settings = _ from hs] at hv
      refine ⟨trace', ?_⟩
      split <;> rename_i hr <;> rwa [hr] at hv

theorem settings_configure (w : World) {call : ConfigCall} (h : ¬ (Command.config call).Sets) :
    (w.configure call).2.settings = w.settings := by
  cases call with
  | get =>
    rw [configure, onConfig]
    split <;> rfl
  | select name =>
    rw [configure]
    split <;> rfl
  | _ => exact (h trivial).elim

theorem settings_enroll (w : World) {call : RegistryCall} (h : ¬ (Command.registry call).Sets) :
    (w.enroll call).2.settings = w.settings := by
  cases call with
  | kernelNames | schedulerNames => rfl
  | lookupKernel name =>
    rw [enroll]
    split
    · rfl
    · exact settings_make w _
  | lookupScheduler name =>
    rw [enroll]
    split <;> rfl
  | _ => exact (h trivial).elim

/-- A command that neither schedules nor sets anything leaves the settings alone. -/
theorem settings_perform (w : World) {c : Command} (hc : ¬ c.Sets) (hs : ¬ c.Schedules) :
    (w.perform c).2.settings = w.settings := by
  cases c with
  | schedule | scheduleEach | chain => exact (hs trivial).elim
  | stopAfter t delay name => exact settings_stopAfter w t delay name
  | cancel t name => exact settings_cancel w t _
  | remove t name => exact settings_remove w t _
  | isExpired t name => exact settings_onFound fun _ _ => rfl
  | delayLeft t name => exact settings_delayLeft w t _
  | stop t => exact settings_onReached fun _ _ _ => rfl
  | attach t b => exact settings_onReached fun _ _ v => settings_attach v _ b
  | query t q =>
    cases q with
    | systemId => exact settings_onFound fun _ _ => rfl
    | _ => exact settings_onReached fun _ _ _ => rfl
  | build name spec => exact settings_build w name spec
  | attachNamed name =>
    rw [perform]
    split
    · rfl
    · exact settings_onReached fun _ _ v => settings_attach v _ _
  | install source => exact settings_installFrom w source
  | config call => exact settings_configure w hc
  | registry call => exact settings_enroll w hc
  | printing call => exact settings_print w call
  | trace call =>
    cases call with
    | report => rfl
    | _ => exact (hc trivial).elim
  | observe s => exact settings_note w s
  | capture => exact settings_onReached fun _ _ _ => rfl
  | backendName name =>
    rw [perform]
    split <;> rfl
  | _ => rfl

/-- **A command that runs nothing leaves the settings alone, unless it sets one of them**: a
scheduling call may be traced. -/
theorem settings_perform_apart (w : World) {c : Command} (hc : ¬ c.Sets) :
    ∃ trace, (w.perform c).2.settings = { w.settings with trace := trace } := by
  cases c with
  | schedule t timing name a => exact settings_schedule w t timing name a
  | scheduleEach t delays name a =>
    obtain ⟨trace, h⟩ := settings_scheduleEach t name a delays w 0
    refine ⟨trace, ?_⟩
    rw [perform]
    split <;> rename_i hs <;> rwa [hs] at h
  | chain t tag delay length name =>
    cases length with
    | zero => exact ⟨w.trace, rfl⟩
    | succ left => exact settings_schedule w t (.after delay) name _
  | _ => exact ⟨w.trace, settings_perform w hc id⟩

end World

end EventSim
