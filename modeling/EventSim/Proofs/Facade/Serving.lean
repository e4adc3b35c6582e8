import EventSim.Proofs.Kernel.Agenda
import EventSim.Proofs.Machine.Seclusion
import EventSim.Proofs.Machine.Calls
import EventSim.Proofs.Sessions.Construction

/-!
# A facade with a known kernel

`World.Serves k` says that the facade has the kernel `k`.  Calls on such a facade come to what the
kernel itself answers, and leave the surroundings as they are but for a handle that is saved.  The
actions that are run may note what they see and do nothing else; then **a run notes down the whole
agenda, event by event**, and leaves an empty one (`Serves.call_run`).
-/

namespace EventSim

/-- What the world has besides its kernels. -/
structure Surroundings where
  named : List (KernelName × KernelId)
  handles : List (HandleName × Handle)
  observed : List Observation
  regime : Option String × Option Config × Registry

/-- The surroundings after some notes, the first note first. -/
def Surroundings.noting (s : Surroundings) (notes : List Observation) : Surroundings :=
  { s with observed := notes.reverse ++ s.observed }

theorem Surroundings.noting_noting (s : Surroundings) (l l' : List Observation) :
    (s.noting l).noting l' = s.noting (l ++ l') := by
  simp only [noting, List.reverse_append, List.append_assoc]

/-- What is noted of a sighting at a time and under a context. -/
def Sighting.seen (now : Time) (context : Context) : Sighting → Observation
  | .number n => .number n
  | .label s => .label s
  | .now => .number now.ticks
  | .context => .number context.toNat
  | .nowAnd i => .timed now i

namespace World

/-- What the world has besides its kernels. -/
def surroundings (w : World) : Surroundings := ⟨w.named, w.handles, w.observed, w.regime⟩

/-- The facade has the kernel `k`. -/
structure Serves (w : World) (k : Kernel Action) : Prop where
  slot : w.slot = some k.id
  engine : w.engine? k.id = some (.builtIn false k)
  sound : k.Sound

variable {w v : World} {k k' : Kernel Action}

@[simp] theorem surroundings_releaseAll (w : World) (l : List Action) :
    (w.releaseAll l).surroundings = w.surroundings := by
  induction l generalizing w with
  | nil => rfl
  | cons a l ih =>
    refine (ih (w.release a)).trans ?_
    unfold release
    split <;> rfl

/-! ### The kernel behind the facade -/

namespace Serves

theorem find (h : w.Serves k) : w.find .facade = .ok (some k.id) := congrArg Except.ok h.slot

theorem reach (h : w.Serves k) : w.reach .facade = .ok (k.id, w) := reach_of_find h.find

/-- Only the kernel and the slot matter. -/
theorem congr (h : w.Serves k) (he : v.engines = w.engines) (hs : v.slot = w.slot) :
    v.Serves k where
  slot := hs.trans h.slot
  engine := by
    rw [engine?, he]
    exact h.engine
  sound := h.sound

theorem aside (h : w.Serves k) (ha : w.Aside v) : v.Serves k := h.congr ha.engines ha.slot

/-- The kernel has changed. -/
theorem setEngine (h : w.Serves k) (hid : k'.id = k.id) (s : k'.Sound) :
    (w.setEngine k.id (.builtIn false k')).Serves k' where
  slot := h.slot.trans (congrArg some hid.symm)
  engine := by
    rw [hid]
    exact engine?_setEngine_self h.engine _
  sound := s

/-! ### Calls -/

/-- An action is scheduled. -/
theorem call_schedule (h : w.Serves k) (name : HandleName) {timing : Timing} {a : Action}
    {g : Handle} (hk : k.schedule timing a = .ok (g, k')) (hid : k'.id = k.id) (s : k'.Sound) :
    ∃ v, w.call (.schedule .facade timing name a) = (.ok (.handle g), v) ∧ v.Serves k' ∧
      v.surroundings = { w.surroundings with handles := (name, g) :: w.handles } := by
  obtain ⟨trace, htrace⟩ := exists_trace w .facade (.builtIn false k) timing
  have hw : { w with trace := trace }.Serves k := h.congr rfl rfl
  refine ⟨({ w with trace := trace }.setEngine k.id (.builtIn false k')).save name g, ?_,
    (hw.setEngine hid s).congr rfl rfl, rfl⟩
  have hperform : w.perform (.schedule .facade timing name a) =
      { w with trace := trace }.concluded k.id k name [a] (.ok (g, k')) := by
    rw [World.perform, schedule_eq h.find h.engine, htrace, hk]
  rw [call_of_not_drives rfl, hperform]
  rfl

theorem call_cancel (h : w.Serves k) (name : HandleName) :
    ∃ v, w.call (.cancel .facade name) = (.ok .done, v) ∧
      v.Serves (k.cancel (w.handle name)).2 ∧ v.surroundings = w.surroundings := by
  have hid : (k.cancel (w.handle name)).2.id = k.id := (Kernel.Does.cancelled k _).id_eq
  refine ⟨_, ?_, (h.setEngine hid h.sound.cancel).aside (aside_releaseAll _ _),
    surroundings_releaseAll _ (k.cancel (w.handle name)).1.toList⟩
  rw [call_of_not_drives rfl, World.perform, cancel_eq h.find h.engine]

theorem call_remove (h : w.Serves k) (name : HandleName)
    (hk : k.Issued (w.handle name) → k.Knows (w.handle name)) :
    ∃ v, w.call (.remove .facade name) = (.ok .done, v) ∧
      v.Serves (k.remove (w.handle name)).2 ∧ v.surroundings = w.surroundings := by
  have hid : (k.remove (w.handle name)).2.id = k.id := (Kernel.Does.removed k _).id_eq
  refine ⟨_, ?_, (h.setEngine hid (h.sound.remove hk)).aside (aside_releaseAll _ _),
    surroundings_releaseAll _ (k.remove (w.handle name)).1.toList⟩
  rw [call_of_not_drives rfl, World.perform, remove_eq h.find h.engine]

theorem call_query (h : w.Serves k) {t : Target} (ht : w.find t = .ok (some k.id)) (q : Query) :
    w.call (.query t q) = (.ok (answer (.builtIn false k) q), w) := by
  rw [call_of_not_drives rfl, World.perform, ask_eq ht h.engine]

theorem call_capture (h : w.Serves k) : w.call .capture = (.ok (.captured k.executed k.now), w) := by
  rw [call_of_not_drives rfl]
  simp only [World.perform, onReached, h.reach, h.engine]
  rfl

theorem call_observations (w : World) :
    w.call .observations = (.ok (.observations w.observed.reverse), w) := by
  rw [call_of_not_drives rfl]
  rfl

end Serves

end World

namespace Machine

open World (Serves)

variable {w : World} {k k' : Kernel Action} {rest : List Frame}
  {r : Option (Except Panic Reply)}

/-! ### Actions that note what they see -/

theorem note_eq (h : w.Serves k) (s : Sighting) :
    w.note s = (.ok .done, { w with observed := s.seen k.now k.context :: w.observed }) := by
  cases s with
  | number | label => rfl
  | now | context | nowAnd =>
    simp only [World.note, World.nowOf, World.contextOf, h.reach, h.engine]
    rfl

/-- The sightings of an action are noted one by one. -/
theorem leads_sightings (h : w.Serves k) (l : List Sighting) :
    ∃ v, Leads ⟨w, .body false (l.map .observe) :: rest, r⟩ ⟨v, rest, r⟩ ∧ v.Serves k ∧
      v.surroundings = w.surroundings.noting (l.map (Sighting.seen k.now k.context)) := by
  induction l generalizing w with
  | nil => exact ⟨w, Leads.single (List.cons_ne_nil _ _), h, rfl⟩
  | cons s l ih =>
    have hperform : w.perform (.observe s) =
        (.ok .done, { w with observed := s.seen k.now k.context :: w.observed }) := note_eq h s
    have hstep : step ⟨w, .body false (.observe s :: l.map .observe) :: rest, r⟩ =
        ⟨{ w with observed := s.seen k.now k.context :: w.observed },
          .body false (l.map .observe) :: rest, r⟩ := by
      show start ⟨w, .answering false (Command.observe s).name (l.map .observe) :: rest, r⟩
        (.observe s) = _
      rw [start_of_not_drives rfl, hperform]
      rfl
    have hfirst : Leads ⟨w, .body false (.observe s :: l.map .observe) :: rest, r⟩ _ :=
      Leads.single (List.cons_ne_nil _ _)
    rw [hstep] at hfirst
    have hnext : { w with observed := s.seen k.now k.context :: w.observed }.Serves k :=
      h.congr rfl rfl
    obtain ⟨v, hrest, hv, hsur⟩ := ih hnext
    refine ⟨v, hfirst.trans hrest, hv, hsur.trans ?_⟩
    exact w.surroundings.noting_noting [s.seen k.now k.context] _

end Machine

/-! ### Runs -/

/-- What the events note, the first note first. -/
def Machine.notesOf (f : Event (Payload Action) → List Sighting) (l : List (Event (Payload Action))) :
    List Observation :=
  l.flatMap fun e => (f e).map (Sighting.seen e.key.time e.key.context)

/-- What the stored events do is to note something down. -/
def Kernel.Notes (f : Event (Payload Action) → List Sighting) (k : Kernel Action) : Prop :=
  ∀ e ∈ k.scheduler.toList, e.payload = .act (.silent ((f e).map .observe))

namespace Machine

open World (Serves)

variable {w : World} {k k' : Kernel Action} {rest : List Frame}
  {r : Option (Except Panic Reply)} {f : Event (Payload Action) → List Sighting}

theorem notes_of_turned (hf : k.Notes f) (t : k.Turned k') : k'.Notes f :=
  fun e he => hf e (t.mem he)

/-- A run loop goes through the whole agenda. -/
theorem leads_running (h : w.Serves k) (hs : k.stopping = false) (hf : k.Notes f) :
    ∃ v k', Leads ⟨w, .running k.id :: rest, r⟩ (deliver ⟨v, rest, r⟩ .done) ∧
      v.Serves k' ∧ k.Ran k' ∧ v.surroundings = w.surroundings.noting (notesOf f k.agenda) := by
  induction hn : k.scheduler.toList.length using Nat.strongRecOn generalizing w k with
  | ind n ih =>
    subst hn
    have hstep : Leads ⟨w, .running k.id :: rest, r⟩
        (stepRun ⟨w, .running k.id :: rest, r⟩ k.id rest) := Leads.single (List.cons_ne_nil _ _)
    have hturn := runTurn_stepRun w k.id (.running k.id :: rest) rest r
    generalize stepRun ⟨w, .running k.id :: rest, r⟩ k.id rest = m at hstep hturn
    cases hturn with
    | absent hne => exact absurd h.engine (hne false k)
    | ended he hq =>
      cases h.engine.symm.trans he
      have hran := h.sound.ran_endRun hs hq
      refine ⟨_, k.endRun, hstep, h.setEngine rfl hran.sound, hran, ?_⟩
      rw [h.sound.agenda_of_idle hs hq]
      rfl
    | @skipped watched l k' payload he hq =>
      cases h.engine.symm.trans he
      have ht := Kernel.turned_of_skipped hq
      have hw : ((w.setEngine k.id (.builtIn false k')).releaseAll payload.action?.toList).Serves
          k' := (h.setEngine ht.id_eq (h.sound.skipped hq)).aside (World.aside_releaseAll _ _)
      obtain ⟨v, l, hl, hv, hran, hsur⟩ :=
        ih _ ht.length_lt hw (ht.stopping_eq.trans hs) (notes_of_turned hf ht) rfl
      rw [ht.id_eq] at hl
      refine ⟨v, l, hstep.trans hl, hv, h.sound.ran_of_skipped hq hran, ?_⟩
      rw [hsur, h.sound.agenda_of_skipped hq, World.surroundings_releaseAll]
      rfl
    | strayed he hq =>
      cases h.engine.symm.trans he
      exact absurd hq h.sound.not_past
    | @halted watched l k' e he hq hp =>
      cases h.engine.symm.trans he
      obtain ⟨rest', hpop, -⟩ := Kernel.dequeue_eq_started hq
      have hact := hf e ((Scheduler.perm_pop hpop).mem_iff.2 List.mem_cons_self)
      rw [hp] at hact
      cases hact
    | @launched watched l k' e a he hq hp =>
      cases h.engine.symm.trans he
      have ht := Kernel.turned_of_started hq
      obtain ⟨rest', hpop, -, -, hk'⟩ := Kernel.dequeue_eq_started hq
      have hact := hf e ((Scheduler.perm_pop hpop).mem_iff.2 List.mem_cons_self)
      rw [hp] at hact
      cases hact
      have hw : (w.setEngine k.id (.builtIn false k')).Serves k' :=
        h.setEngine ht.id_eq (h.sound.started hq)
      obtain ⟨u, hbody, hu, hnoted⟩ :
          ∃ u, Leads ⟨w.setEngine k.id (.builtIn false k'), .body false ((f e).map .observe) ::
              .running k.id :: rest, r⟩ ⟨u, .running k.id :: rest, r⟩ ∧ u.Serves k' ∧
            u.surroundings = w.surroundings.noting ((f e).map (Sighting.seen k'.now k'.context)) :=
        leads_sightings hw (f e)
      obtain ⟨v, l, hl, hv, hran, hsur⟩ :=
        ih _ ht.length_lt hu (ht.stopping_eq.trans hs) (notes_of_turned hf ht) rfl
      rw [ht.id_eq] at hl
      refine ⟨v, l, hstep.trans (hbody.trans hl), hv, h.sound.ran_of_started hq hran, ?_⟩
      rw [hsur, h.sound.agenda_of_started hq, hnoted, Surroundings.noting_noting, notesOf,
        notesOf, List.flatMap_cons, hk']

end Machine

namespace World

variable {w : World} {k : Kernel Action} {f : Event (Payload Action) → List Sighting}

/-- **A run notes down the whole agenda.** -/
theorem Serves.call_run (h : w.Serves k) (hf : k.Notes f) :
    ∃ v k', w.call (.run .facade) = (.ok .done, v) ∧ v.Serves k' ∧ k.Ran k' ∧
      v.surroundings = w.surroundings.noting (Machine.notesOf f k.agenda) := by
  have hsound : k.beginRun.Sound := h.sound.beginRun
  have hw : (w.setEngine k.id (.builtIn false k.beginRun)).Serves k.beginRun :=
    h.setEngine rfl hsound
  have hstart : Machine.ofCall w (.run .facade) =
      ⟨w.setEngine k.id (.builtIn false k.beginRun), [.running k.id], none⟩ := by
    simp only [Machine.ofCall, Machine.start, h.reach, Machine.beginRun, h.engine]
  obtain ⟨v, k', hl, hv, hran, hsur⟩ :
      ∃ v k', (Machine.ofCall w (.run .facade)).Leads ⟨v, [], some (.ok .done)⟩ ∧ v.Serves k' ∧
        k.beginRun.Ran k' ∧
        v.surroundings = w.surroundings.noting (Machine.notesOf f k.beginRun.agenda) :=
    hstart ▸ Machine.leads_running hw rfl hf
  exact ⟨v, k', call_of_leads hl, hv,
    ⟨hran.id_eq, hran.sound, hran.teardowns_eq, hran.executed_eq, hran.now_eq⟩, hsur⟩

/-- A kernel without teardown events goes quietly. -/
theorem Serves.call_teardown (h : w.Serves k) (ht : k.teardowns = []) :
    ∃ v, w.call .teardown = (.ok .done, v) := by
  have hw : { w with printers := .none }.Serves k := h.congr rfl rfl
  have hpop : k.popTeardown = none := Kernel.popTeardown_eq_none.2 ht
  have hstart : Machine.ofCall { w with printers := .none } (.destroy .facade) =
      ⟨{ w with printers := .none }, [.destroying k.id], none⟩ := by
    simp only [Machine.ofCall, Machine.start, hw.reach, Machine.beginDestroy, hw.engine]
    rfl
  have hstep : Machine.Leads ⟨{ w with printers := .none }, [.destroying k.id], none⟩
      ⟨({ w with printers := .none }.setEngine k.id (.builtIn false k.sweep.2)).releaseAll
        k.sweep.1, [], some (.ok .done)⟩ := by
    have hl : Machine.Leads ⟨{ w with printers := .none }, [.destroying k.id], none⟩
        (Machine.stepDestroy ⟨{ w with printers := .none }, [.destroying k.id], none⟩ k.id []) :=
      Machine.Leads.single (List.cons_ne_nil _ _)
    simp only [Machine.stepDestroy, hw.engine, hpop, Machine.deliver] at hl
    exact hl
  have hdestroy := call_of_leads (hstart ▸ hstep)
  rw [World.call_teardown]
  split
  · exact ⟨w, rfl⟩
  · rw [hdestroy]
    exact ⟨_, rfl⟩

end World

end EventSim
