import EventSim.Proofs.Machine.Housing
import EventSim.Proofs.Machine.Settings
import EventSim.Proofs.Machine.Stacks

/-!
# Calls that leave the configuration alone

Whatever a call runs may configure something, and a kernel that is older than the call may hold any
action.  A world is `Secluded` if the facade has no such kernel and the newer ones hold only
commands that heed this: they configure nothing, and no kernel is run or handed over by its name.
**A call of such a command leaves the configuration and the registry as they are**, and the world
secluded (`Secluded.call`).  Without older kernels, this holds of all commands that configure
nothing.
-/

namespace EventSim

/-- What the configuration comes from, and the registry. -/
def World.regime (w : World) : Option String × Option Config × Registry :=
  (w.environment, w.written, w.registry)

namespace Command

/-- The command may change the configuration or the registry. -/
def Configures : Command → Prop
  | .config .get | .config (.select _) => False
  | .config _ | .registry (.registerKernel ..) | .registry (.registerScheduler ..)
  | .scenario _ => True
  | _ => False

/-- The command configures nothing and, if some kernels are older, it runs none by its name and
hands none over. -/
structure Heeds (older : Nat) (c : Command) : Prop where
  keeps : ¬ c.Configures
  apart : 0 < older →
    ¬ c.Installs ∧ ∀ name, c ≠ .run (.kernel name) ∧ c ≠ .destroy (.kernel name)

theorem Heeds.of_keeps {c : Command} (h : ¬ c.Configures) : c.Heeds 0 :=
  ⟨h, fun h => absurd h (Nat.lt_irrefl 0)⟩

theorem Rehearsed.heeds {c : Command} (h : c.Rehearsed) (older : Nat) : c.Heeds older := by
  obtain ⟨hs, hi⟩ := h
  refine ⟨fun hc => ?_, fun _ => ⟨hi, fun name => ⟨?_, ?_⟩⟩⟩
  · cases c with
    | registry call => cases call <;> first | exact hs | exact hc
    | config => exact hs
    | scenario => exact hs
    | _ => exact hc
  · rintro rfl
    exact hs
  · rintro rfl
    exact hs

end Command

/-- If it is the rest of what a kernel does, the kernel is not older; it is of no scenario. -/
def Role.Young (older : Nat) : Role → Prop
  | .running id | .destroying id => older ≤ id
  | .scenario => False
  | .body | .clearing _ => True

namespace World

/-- The facade has none of the `older` kernels, and the other ones hold only what heeds that. -/
structure Secluded (older : Nat) (w : World) : Prop where
  length : older ≤ w.engines.length
  slot : ∀ {id}, w.slot = some id → older ≤ id
  holds : ∀ {id}, older ≤ id → w.HoldsAt id (Action.All (Command.Heeds older))

variable {w w' v : World} {older : Nat} {id : KernelId} {t : Target}

theorem regime_of_settings {trace : Trace} (h : v.settings = { w.settings with trace := trace }) :
    v.regime = w.regime := by
  obtain ⟨he, hw, hr, -⟩ := Settings.mk.inj h
  rw [regime, regime, he, hw, hr]
  rfl

theorem config_of_regime (h : v.regime = w.regime) : v.config = w.config := by
  obtain ⟨he, hr⟩ := Prod.mk.inj h
  rw [config, config, (Prod.mk.inj hr).1, he]

theorem registry_of_regime (h : v.regime = w.regime) : v.registry = w.registry :=
  (Prod.mk.inj (Prod.mk.inj h).2).2

theorem regime_perform (w : World) {c : Command} (hc : ¬ c.Configures) :
    (w.perform c).2.regime = w.regime := by
  by_cases hs : c.Sets
  · cases c with
    | config call => cases call <;> first | exact (hc trivial).elim | exact hs.elim
    | registry call => cases call <;> first | exact (hc trivial).elim | exact hs.elim
    | trace call => cases call <;> rfl
    | _ => exact hs.elim
  · obtain ⟨trace, h⟩ := settings_perform_apart w hs
    exact regime_of_settings h

/-- What has grown without taking anything in that does not heed is as secluded as before. -/
theorem Secluded.evolves {P : Happening → Prop} (h : w.Secluded older)
    (hg : 0 < older → w.Grows w') (he : Evolves P w w')
    (hP : ∀ id d, P (.did id d) →
      ∀ a, Payload.act a ∈ d.taken → a.All (Command.Heeds older)) : w'.Secluded older := by
  have hholds {id : KernelId} (hid : older ≤ id) :
      w'.HoldsAt id (Action.All (Command.Heeds older)) := by
    refine he.keeps (fun v x v' hx hpx hv => hv.happens hx fun d hd a ha => ?_) (h.holds hid)
    exact hP id d (hd ▸ hpx) a ha
  rcases Nat.eq_zero_or_pos older with rfl | hpos
  · exact ⟨Nat.zero_le _, fun _ => Nat.zero_le _, hholds⟩
  · have hg := hg hpos
    refine ⟨Nat.le_trans h.length hg.length, fun hs => ?_, hholds⟩
    rcases hg.slot hs with hs | hb
    · exact h.slot hs
    · exact Nat.le_trans h.length hb.1

/-- Only newer kernels can be reached. -/
theorem Secluded.reach (h : w.Secluded older) (ht : 0 < older → t = .facade)
    (hr : w.reach t = .ok (id, v)) : older ≤ id := by
  rcases Nat.eq_zero_or_pos older with rfl | hpos
  · exact Nat.zero_le _
  · obtain rfl := ht hpos
    unfold World.reach resolve at hr
    dsimp only at hr
    split at hr
    · cases hr
      exact h.slot ‹_›
    · exact Nat.le_trans h.length (grows_construct hr).2.1

theorem Secluded.aside (h : w.Secluded older) (ha : w.Aside w') : w'.Secluded older where
  length := ha.engines ▸ h.length
  slot hs := h.slot (ha.slot ▸ hs)
  holds hid := (h.holds hid).aside ha

end World

namespace Machine

/-- The world is secluded, and so is everything that waits. -/
structure Secluded (older : Nat) (m : Machine) : Prop where
  world : m.world.Secluded older
  waiting : ∀ f ∈ m.stack, f.All (Command.Heeds older)
  young : ∀ role ∈ roles m.stack, role.Young older

variable {m : Machine} {w : World} {s rest : List Frame} {r : Option (Except Panic Reply)}
  {older : Nat} {id : KernelId} {c : Command}

/-! ### Starts of calls -/

theorem young_deliver (x : Reply) (h : ∀ role ∈ roles s, role.Young older) :
    ∀ role ∈ roles (deliver ⟨w, s, r⟩ x).stack, role.Young older := by
  have hroles : roles (deliver ⟨w, s, r⟩ x).stack = roles s := roles_deliver x
  rwa [hroles]

theorem young_panic (p : Panic) : ∀ role ∈ roles (panic ⟨w, s, r⟩ p).stack, role.Young older :=
  fun role hrole => by cases hrole

theorem young_beginRun (hid : older ≤ id) (h : ∀ role ∈ roles s, role.Young older) :
    ∀ role ∈ roles (beginRun ⟨w, s, r⟩ id).stack, role.Young older := by
  unfold beginRun
  split
  · exact List.forall_mem_cons.2 ⟨hid, h⟩
  · exact young_deliver _ h

theorem young_beginDestroy (hid : older ≤ id) (h : ∀ role ∈ roles s, role.Young older) :
    ∀ role ∈ roles (beginDestroy ⟨w, s, r⟩ id).stack, role.Young older := by
  unfold beginDestroy
  split
  · exact List.forall_mem_cons.2 ⟨hid, h⟩
  · exact young_deliver _ h

theorem young_beginTeardown (hw : w.Secluded older) (h : ∀ role ∈ roles s, role.Young older) :
    ∀ role ∈ roles (beginTeardown ⟨w, s, r⟩).stack, role.Young older := by
  unfold beginTeardown
  split
  · exact young_deliver _ h
  · rename_i id hs
    have hclearing : ∀ role ∈ roles (.clearing id :: s), role.Young older :=
      List.forall_mem_cons.2 ⟨trivial, h⟩
    exact young_beginDestroy (hw.slot hs) hclearing

theorem young_start (hw : w.Secluded older) (hc : c.Heeds older)
    (h : ∀ role ∈ roles s, role.Young older) :
    ∀ role ∈ roles (start ⟨w, s, r⟩ c).stack, role.Young older := by
  have hfacade {t : Target} (hne : 0 < older → ∀ name, t ≠ .kernel name) :
      0 < older → t = .facade := by
    intro hpos
    cases t with
    | facade => rfl
    | kernel name => exact absurd rfl (hne hpos name)
  cases c with
  | run t =>
    have ht : 0 < older → t = .facade :=
      hfacade fun hpos name heq => ((hc.apart hpos).2 name).1 (heq ▸ rfl)
    rw [start]
    split
    · exact young_panic _
    · exact young_beginRun (hw.reach ht ‹_›) h
  | destroy t =>
    have ht : 0 < older → t = .facade :=
      hfacade fun hpos name heq => ((hc.apart hpos).2 name).2 (heq ▸ rfl)
    rw [start]
    split
    · exact young_panic _
    · exact young_beginDestroy (hw.reach ht ‹_›) h
  | teardown => exact young_beginTeardown hw h
  | scenario => exact absurd trivial hc.keeps
  | _ =>
    rw [start_of_not_drives rfl]
    split
    · exact young_panic _
    · exact young_deliver _ h

theorem regime_start (hc : ¬ c.Configures) : (start ⟨w, s, r⟩ c).world.regime = w.regime := by
  cases hd : c.drives with
  | true => exact World.regime_of_settings (settings_start_of_drives hd)
  | false =>
    have h : (start ⟨w, s, r⟩ c).world.regime = (w.perform c).2.regime :=
      World.regime_of_settings (settings_start_of_not_drives hd)
    exact h.trans (w.regime_perform hc)

/-- A command that heeds keeps a session secluded. -/
theorem Secluded.start (h : Secluded older ⟨w, s, r⟩) (hc : c.All (Command.Heeds older)) :
    (start ⟨w, s, r⟩ c).Secluded older where
  world := h.world.evolves (fun hpos => grows_start (hc.self.apart hpos).1) (evolves_start c)
    fun id _ hb _ ha => hc.carries (carries_of_brings id hb ha)
  waiting := waiting_start c h.waiting
  young := young_start h.world hc.self h.young

/-! ### Steps -/

theorem young_startAction (a : Action) (h : ∀ role ∈ roles s, role.Young older) :
    ∀ role ∈ roles (startAction ⟨w, s, r⟩ a).stack, role.Young older := by
  rcases roles_startAction w s r a with ⟨hn, -⟩ | hb
  · rw [hn]
    exact fun role hrole => by cases hrole
  · rw [hb]
    exact List.forall_mem_cons.2 ⟨trivial, h⟩

theorem young_stepRun (h : ∀ role ∈ roles (.running id :: rest), role.Young older) :
    ∀ role ∈ roles (stepRun ⟨w, .running id :: rest, r⟩ id rest).stack, role.Young older := by
  have hrest : ∀ role ∈ roles rest, role.Young older := (List.forall_mem_cons.1 h).2
  have ht := runTurn_stepRun w id (.running id :: rest) rest r
  generalize stepRun ⟨w, .running id :: rest, r⟩ id rest = n at ht ⊢
  cases ht with
  | absent | ended => exact young_deliver _ hrest
  | skipped | halted => exact h
  | strayed => exact young_panic _
  | launched => exact young_startAction _ h

theorem young_stepDestroy (h : ∀ role ∈ roles (.destroying id :: rest), role.Young older) :
    ∀ role ∈ roles (stepDestroy ⟨w, .destroying id :: rest, r⟩ id rest).stack,
      role.Young older := by
  have hrest : ∀ role ∈ roles rest, role.Young older := (List.forall_mem_cons.1 h).2
  have ht := destroyTurn_stepDestroy w id (.destroying id :: rest) rest r
  generalize stepDestroy ⟨w, .destroying id :: rest, r⟩ id rest = n at ht ⊢
  cases ht with
  | absent | swept => exact young_deliver _ hrest
  | unwound => exact young_startAction _ h

/-- A step that starts no command keeps the world secluded. -/
theorem Secluded.world_step (h : m.Secluded older) (ho : m.onset? .step = none) :
    m.step.world.Secluded older := by
  obtain ⟨w, stack, result⟩ := m
  cases stack with
  | nil => exact h.world
  | cons f rest =>
    refine h.world.evolves (fun _ => grows_make (x := .step) ho) (evolves_step f rest) ?_
    intro id d hb a ha
    obtain ⟨c, hc, hcarries⟩ := carries_of_step_brings hb ha
    exact ((h.waiting f List.mem_cons_self).next hc).carries hcarries

/-- A session that is secluded is in no scenario. -/
theorem Secluded.unstaged (h : m.Secluded older) : m.Unstaged := by
  intro run stage rest hs
  have hy := h.young
  rw [hs] at hy
  exact (List.forall_mem_cons.1 hy).1

theorem Secluded.regime_step (h : m.Secluded older) (ho : m.onset? .step = none) :
    m.step.world.regime = m.world.regime :=
  World.regime_of_settings (settings_make (x := .step) ho h.unstaged)

/-- **A step keeps a session secluded and the regime as it is.** -/
theorem Secluded.step (h : m.Secluded older) :
    m.step.Secluded older ∧ m.step.world.regime = m.world.regime := by
  obtain ⟨w, stack, r⟩ := m
  cases stack with
  | nil => exact ⟨h, rfl⟩
  | cons f rest =>
    obtain ⟨hf, hrest⟩ := List.forall_mem_cons.1 h.waiting
    have hyoung : ∀ role ∈ roles rest, role.Young older := (List.forall_mem_cons.1 h.young).2
    cases f with
    | body reporting left =>
      cases left with
      | nil => exact ⟨⟨h.world, hrest, hyoung⟩, rfl⟩
      | cons c left =>
        obtain ⟨hc, hleft⟩ := List.forall_mem_cons.1 hf
        rw [Machine.step]
        dsimp only
        generalize hv : (if (reporting && c.settles) = true then w.log (.began c.name) else w) = v
        have ha : w.Aside v ∧ v.regime = w.regime := by
          rw [← hv]
          split
          · exact ⟨World.aside_log w _, rfl⟩
          · exact ⟨.refl w, rfl⟩
        have hm : Secluded older ⟨v, .answering reporting c.name left :: rest, r⟩ :=
          ⟨h.world.aside ha.1, List.forall_mem_cons.2 ⟨hleft, hrest⟩,
            List.forall_mem_cons.2 ⟨trivial, hyoung⟩⟩
        exact ⟨hm.start hc, (regime_start hc.self.keeps).trans ha.2⟩
    | answering reporting name left =>
      exact ⟨⟨h.world, List.forall_mem_cons.2 ⟨hf, hrest⟩, h.young⟩, rfl⟩
    | running id =>
      have hid : older ≤ id := (List.forall_mem_cons.1 h.young).1
      exact ⟨⟨h.world_step rfl, waiting_stepRun (h.world.holds hid) h.waiting,
        young_stepRun h.young⟩, h.regime_step rfl⟩
    | destroying id =>
      have hid : older ≤ id := (List.forall_mem_cons.1 h.young).1
      exact ⟨⟨h.world_step rfl, waiting_stepDestroy (h.world.holds hid) h.waiting,
        young_stepDestroy h.young⟩, h.regime_step rfl⟩
    | clearing found =>
      exact ⟨⟨h.world_step rfl, waiting_deliver _ hrest, young_deliver _ hyoung⟩,
        h.regime_step rfl⟩
    | scenario run stage => exact absurd rfl (h.unstaged run stage rest)

theorem Secluded.steps (h : m.Secluded older) (n : Nat) :
    (steps n m).Secluded older ∧ (steps n m).world.regime = m.world.regime := by
  let I (m' : Machine) : Prop := m'.Secluded older ∧ m'.world.regime = m.world.regime
  have hstep {m' : Machine} (hm : I m') : I m'.step := ⟨hm.1.step.1, hm.1.step.2.trans hm.2⟩
  exact keeps_steps I hstep ⟨h, rfl⟩ n

end Machine

/-- **A call of a command that heeds leaves the world secluded and its regime as it is.** -/
theorem World.Secluded.call {w : World} {older : Nat} {c : Command} (h : w.Secluded older)
    (hc : c.All (Command.Heeds older)) :
    (w.call c).2.Secluded older ∧ (w.call c).2.regime = w.regime := by
  have hidle : Machine.Secluded older ⟨w, [], none⟩ :=
    ⟨h, fun f hf => (by cases hf), fun role hrole => by cases hrole⟩
  have hstart : (Machine.ofCall w c).Secluded older := hidle.start hc
  have hregime : (Machine.ofCall w c).world.regime = w.regime := Machine.regime_start hc.self.keeps
  obtain ⟨hs, hr⟩ := hstart.steps (Machine.ofCall w c).weight
  exact ⟨hs.world, hr.trans hregime⟩

end EventSim
