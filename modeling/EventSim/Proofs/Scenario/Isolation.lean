import EventSim.Proofs.Machine.Seclusion
import EventSim.Proofs.Scenario.Calls

/-!
# What scenarios leave behind

A scenario tears the facade down before and after it runs, and in between it calls nothing that
configures and reaches no kernel that is older.  So the slot is empty when it returns, and the
configuration changes in two places only: where the scenario chooses its scheduler, and where what
was found after the first teardown is put back.

Putting it back goes through a check of both names.  **The configuration is the old one again,
unless that was never checked and is refused now** (`isolation`); then the scheduler of the scenario
stays chosen.
-/

namespace EventSim

namespace World

variable {w w' v : World} {run : ScenarioRun} {saved : Config} {older : Nat} {x : Reply}

/-- The configuration under which the plan of a scenario is followed: an unknown scheduler is not
chosen. -/
def chosen (w : World) (run : ScenarioRun) (saved : Config) : Config :=
  match w.registry.scheduler run.scheduler with
  | .ok _ => { saved with schedulerType := run.scheduler }
  | .error _ => saved

/-- The configuration after a scenario: one that would be refused is not restored. -/
def restored (w : World) (run : ScenarioRun) (saved : Config) : Config :=
  match w.registry.validate saved with
  | .ok _ => saved
  | .error _ => w.chosen run saved

theorem restored_eq_iff :
    w.restored run saved = saved ↔
      w.registry.validate saved = .ok () ∨ w.chosen run saved = saved := by
  unfold restored
  split <;> rename_i hv
  · exact ⟨fun _ => .inl hv, fun _ => rfl⟩
  · exact ⟨.inr, fun h => h.resolve_left (by simp [hv])⟩

/-! ### Teardowns -/

theorem slot_abandon (w : World) (id : KernelId) : (w.abandon id).slot = w.slot :=
  slot_of_places (places_abandon w id)

theorem slot_vacate (w : World) : w.vacate.slot = none := by
  unfold vacate
  split
  · assumption
  · exact slot_abandon _ _

/-- A teardown that returns has cleared the slot. -/
theorem slot_of_call_teardown (h : w.call .teardown = (.ok x, v)) : v.slot = none ∧ x = .done := by
  rw [call_teardown] at h
  split at h
  · cases h
    exact ⟨‹_›, rfl⟩
  · split at h
    · cases h
    · cases h
      exact ⟨slot_vacate _, rfl⟩

/-- With an empty slot, all kernels are older ones. -/
theorem secluded_of_slot (h : w.slot = none) : w.Secluded w.engines.length where
  length := Nat.le_refl _
  slot hs := by
    rw [h] at hs
    cases hs
  holds hid := by
    intro watched k hk
    have hlt : _ < w.engines.length := (List.getElem?_eq_some_iff.1 hk).1
    exact absurd hid (Nat.not_le_of_lt hlt)

theorem secluded_of_holds (h : w.Holds (Action.All fun c => ¬ c.Configures)) : w.Secluded 0 where
  length := Nat.zero_le _
  slot _ := Nat.zero_le _
  holds _ := fun watched k hk a ha => (h _ watched k hk a ha).imp fun _ => .of_keeps

/-- A teardown configures nothing. -/
theorem Secluded.regime_teardown (h : w.Secluded older) {y : Except Panic Reply}
    (ht : w.call .teardown = (y, v)) : v.regime = w.regime := by
  have hheeds : Command.teardown.All (Command.Heeds older) := by
    simp only [Command.All]
    exact ⟨id, fun _ => ⟨id, fun _ => ⟨nofun, nofun⟩⟩⟩
  have hcall := h.call hheeds
  rw [ht] at hcall
  exact hcall.2

/-! ### Plans -/

theorem Secluded.forgetInjected (h : w.Secluded older) : w.forgetInjected.Secluded older :=
  h.aside (aside_forgetInjected w)

/-- A kernel that is not older is handed over. -/
theorem Secluded.occupy {id : KernelId} (h : w.Secluded older) (hid : older ≤ id)
    (hi : w.install id = .ok (.ok v)) : v.Secluded older := by
  obtain ⟨b, rfl⟩ := install_eq_ok hi
  obtain ⟨hl, hp⟩ := Prod.mk.inj (places_occupy w id b)
  constructor
  case length => exact hl ▸ h.length
  case slot =>
    intro j hj
    cases (Prod.mk.inj hp).1.symm.trans hj
    exact hid
  case holds =>
    intro j hj
    refine (evolves_install hi).keeps (fun _ x _ hx hb hv => ?_) (h.holds hj)
    refine hv.happens hx fun d hd => ?_
    subst hd
    exact hb.elim

theorem Secluded.call_install {name : KernelName} {id : KernelId} (h : w.Secluded older)
    (hl : w.lookup name = .ok id) (hid : older ≤ id) :
    (w.call (.install (.held name))).2.Secluded older ∧
      (w.call (.install (.held name))).2.regime = w.regime := by
  have hregime : (w.perform (.install (.held name))).2.regime = w.regime :=
    regime_perform w (by exact False.elim)
  have hperform : (w.perform (.install (.held name))).2.Secluded older := by
    rw [perform, installFrom]
    simp only [hl]
    split
    · exact h
    · exact h
    · exact h.occupy hid ‹_›
  rw [call_of_not_drives rfl]
  split <;> rename_i hp <;> rw [hp] at hregime hperform
  · exact ⟨hperform.forgetInjected, hregime⟩
  · exact ⟨hperform, hregime⟩

theorem Secluded.follow {left : List Scenario.Probe} (h : w.Secluded older)
    (hleft : ∀ x ∈ left, x.command.All (Command.Heeds older)) (replies : List Reply) :
    (w.follow left replies).2.Secluded older ∧
      (w.follow left replies).2.regime = w.regime := by
  induction left generalizing w replies with
  | nil => exact ⟨h, rfl⟩
  | cons probe left ih =>
    obtain ⟨hc, hleft⟩ := List.forall_mem_cons.1 hleft
    obtain ⟨hs, hr⟩ := h.call hc
    rw [World.follow]
    split <;> rename_i hcall <;> rw [hcall] at hs hr
    · exact ⟨hs, hr⟩
    · split
      · exact ⟨hs, hr⟩
      · obtain ⟨hs', hr'⟩ := ih hs hleft _
        exact ⟨hs', hr'.trans hr⟩

theorem lookup_build (w : World) (spec : KernelSpec) :
    (w.build (some .injected) spec).2.lookup .injected = .ok w.engines.length := by
  obtain ⟨hid, -⟩ := length_make w spec
  simp only [build, lookup, Option.getD_some, List.lookup_cons_self, hid]

/-- Making a kernel and handing it over, before the rest of a plan. -/
theorem Secluded.follow_injection {left : List Scenario.Probe} {spec : KernelSpec}
    {judge judge' : List Reply → Option String} (h : w.Secluded older)
    (hleft : ∀ x ∈ left, x.command.All (Command.Heeds older)) :
    (w.follow (⟨.build (some .injected) spec, judge⟩ ::
        ⟨.install (.held .injected), judge'⟩ :: left) []).2.Secluded older ∧
      (w.follow (⟨.build (some .injected) spec, judge⟩ ::
        ⟨.install (.held .injected), judge'⟩ :: left) []).2.regime = w.regime := by
  have hbuild : (Command.build (some .injected) spec).All (Command.Heeds older) := by
    simp only [Command.All]
    exact ⟨id, fun _ => ⟨id, fun _ => ⟨nofun, nofun⟩⟩⟩
  obtain ⟨hs, hr⟩ := h.call hbuild
  have hlookup : (w.call (.build (some .injected) spec)).2.lookup .injected =
      .ok w.engines.length := by
    rw [call_of_not_drives rfl]
    exact lookup_build w spec
  obtain ⟨hs', hr'⟩ := hs.call_install hlookup h.length
  rw [World.follow]
  dsimp only
  split <;> rename_i hcall <;> rw [hcall] at hs hr hs' hr'
  · exact ⟨hs, hr⟩
  · split
    · exact ⟨hs, hr⟩
    · rw [World.follow]
      dsimp only
      split <;> rename_i hcall' <;> rw [hcall'] at hs' hr'
      · exact ⟨hs', hr'.trans hr⟩
      · split
        · exact ⟨hs', hr'.trans hr⟩
        · obtain ⟨hs'', hr''⟩ := hs'.follow hleft _
          exact ⟨hs'', hr''.trans (hr'.trans hr)⟩

/-- **A plan leaves the world secluded and its regime as it is.** -/
theorem Secluded.follow_plan (h : w.Secluded older) (run : ScenarioRun) :
    (w.follow run.plan []).2.Secluded older ∧ (w.follow run.plan []).2.regime = w.regime := by
  have hheeds {l : List Scenario.Probe} (hl : ∀ x ∈ l, x.Rehearsed) :
      ∀ x ∈ l, x.command.All (Command.Heeds older) :=
    fun x hx => Command.All.imp (fun _ hc => hc.heeds older) (hl x hx)
  by_cases hi : run.scenario = .injection
  · obtain ⟨rest, heq, hrest⟩ := Scenario.rehearsed_injection run.seed run.scheduler
    rw [ScenarioRun.plan, hi, Scenario.plan, heq]
    exact h.follow_injection (hheeds hrest)
  · exact h.follow (hheeds (Scenario.rehearsed_plan hi run.seed run.scheduler run.events)) []

/-! ### Choosing and restoring -/

theorem chooseScheduler_of_config (hc : w.config = .ok saved) (name : String) :
    w.chooseScheduler name =
      match w.registry.scheduler name with
      | .error e => (.ok (.refused e), w)
      | .ok _ => (.ok .done, { w with written := some { saved with schedulerType := name } }) := by
  unfold chooseScheduler
  cases w.registry.scheduler name with
  | error e => rfl
  | ok => simp only [onConfig, write, hc]

theorem apply_of_config {c : Config} (hc : w.config = .ok saved) :
    w.apply c =
      match w.registry.validate c with
      | .error e => (.ok (.refused e), w)
      | .ok _ => (.ok .done, { w with written := some c }) := by
  unfold World.apply
  cases w.registry.validate c with
  | error e => rfl
  | ok => simp only [write, hc]

/-- A plan is followed under the chosen configuration and leaves it. -/
theorem Secluded.rehearse (h : w.Secluded older) (hc : w.config = .ok saved)
    {verdict : Except String (Nat × Time)} (hr : w.rehearse run = (.ok verdict, v)) :
    v.Secluded older ∧ v.registry = w.registry ∧ v.config = .ok (w.chosen run saved) := by
  rw [World.rehearse, chooseScheduler_of_config hc] at hr
  unfold chosen
  cases hs : w.registry.scheduler run.scheduler with
  | error e =>
    rw [hs] at hr
    cases hr
    exact ⟨h, rfl, hc⟩
  | ok b =>
    rw [hs] at hr
    dsimp only at hr ⊢
    generalize hu : ({ w with
      written := some { saved with schedulerType := run.scheduler }, observed := [] } : World) = u
      at hr
    have hsecluded : u.Secluded older := h.aside (hu ▸ ⟨rfl, rfl, rfl, rfl, rfl⟩)
    obtain ⟨hv, hregime⟩ := hsecluded.follow_plan run
    rw [hr] at hv hregime
    refine ⟨hv, (registry_of_regime hregime).trans (hu ▸ rfl), (config_of_regime hregime).trans ?_⟩
    rw [← hu]
    rfl

/-- The end of a scenario puts the old configuration back if it can. -/
theorem restore_eq {verdict : Except String (Nat × Time)} {c : Config} (hc : w.config = .ok c) :
    ∃ v, w.restore run saved verdict = (.ok (.scenario (run.finish verdict)), v) ∧
      v.slot = w.slot ∧ v.registry = w.registry ∧
      v.config = .ok (match w.registry.validate saved with | .ok _ => saved | .error _ => c) := by
  rw [restore, apply_of_config hc]
  cases w.registry.validate saved with
  | error e => exact ⟨w.forgetInjected, rfl, rfl, rfl, hc⟩
  | ok => exact ⟨_, rfl, rfl, rfl, rfl⟩

/-- **A scenario that returns leaves the slot empty, and the configuration that it found after its
first teardown, if that one is accepted or was not changed.**  The first teardown changes it only if
an action that is held does.  The same holds of scenarios in the middle of other calls. -/
theorem isolation {request : ScenarioRequest} (hrun : ScenarioRun.ofRequest? request = some run)
    (h : w.call (.scenario request) = (.ok x, w')) :
    w'.slot = none ∧
    (∃ w₁ saved, w.call .teardown = (.ok .done, w₁) ∧ w₁.config = .ok saved ∧
      w'.registry = w₁.registry ∧ w'.config = .ok (w₁.restored run saved) ∧
      (w'.config = w₁.config ↔
        w₁.registry.validate saved = .ok () ∨ w₁.chosen run saved = saved) ∧
      (w.Holds (Action.All fun c => ¬ c.Configures) →
        w₁.config = w.config ∧ w₁.registry = w.registry)) ∧
    ∀ s r, (Machine.start ⟨w, s, r⟩ (.scenario request)).Leads
      (Machine.resumed s r (.ok x, w')) := by
  have hnested (s : List Frame) (r : Option (Except Panic Reply)) :=
    h ▸ Machine.leads_call w (.scenario request) s r
  rw [call_scenario hrun, stage] at h
  split at h
  · cases h
  · rename_i y w₁ hteardown
    obtain ⟨hempty, rfl⟩ := slot_of_call_teardown hteardown
    split at h
    · cases h
    · rename_i saved hsaved
      split at h
      · cases h
      · rename_i verdict v hrehearse
        obtain ⟨hv, hregistry, hchosen⟩ :=
          (secluded_of_slot hempty).rehearse hsaved hrehearse
        split at h
        · cases h
        · rename_i z u hlast
          obtain ⟨hslot, rfl⟩ := slot_of_call_teardown hlast
          have hu : u.regime = v.regime := hv.regime_teardown hlast
          have huc : u.config = .ok (w₁.chosen run saved) := (config_of_regime hu).trans hchosen
          have hur : u.registry = w₁.registry := (registry_of_regime hu).trans hregistry
          obtain ⟨v', hrestore, hslot', hregistry', hconfig'⟩ := restore_eq huc
          rw [hrestore] at h
          cases h
          rw [hur] at hconfig'
          refine ⟨hslot'.trans hslot, ⟨w₁, saved, hteardown, hsaved, hregistry'.trans hur,
            hconfig', ?_, fun hholds => ?_⟩, hnested⟩
          · rw [hconfig', hsaved, Except.ok.injEq]
            exact restored_eq_iff
          · have hfirst := (secluded_of_holds hholds).regime_teardown hteardown
            exact ⟨config_of_regime hfirst, registry_of_regime hfirst⟩

/-- A session whose environment names an unknown scheduler, which nobody has checked. -/
def unregistered : World := .pristine (some "SchedulerType=tempo::Nope")

/-- A scenario under the ordered map. -/
def orderingRequest : ScenarioRequest := ⟨"ordering", 42, none, none⟩

/-- The unknown scheduler is refused when it is put back, and the one of the scenario stays. -/
theorem isolation_unregistered :
    ScenarioRun.ofRequest? orderingRequest = some ⟨.ordering, 42, Config.mapScheduler, 1000⟩ ∧
      unregistered.config = .ok ⟨Config.builtInKernel, "tempo::Nope"⟩ ∧
      ∃ x w', unregistered.call (.scenario orderingRequest) = (.ok x, w') ∧ w'.slot = none ∧
        w'.config = .ok ⟨Config.builtInKernel, Config.mapScheduler⟩ := by
  have hrun : ScenarioRun.ofRequest? orderingRequest =
      some ⟨.ordering, 42, Config.mapScheduler, 1000⟩ := by
    have hname : ScenarioId.ofName? "ordering" = some .ordering := by decide +kernel
    simp only [ScenarioRun.ofRequest?, orderingRequest, hname]
    rfl
  have hconfig : unregistered.config = .ok ⟨Config.builtInKernel, "tempo::Nope"⟩ := rfl
  have hreturns : (unregistered.call (.scenario orderingRequest)).1.isOk = true := by
    decide +kernel
  refine ⟨hrun, hconfig, ?_⟩
  obtain ⟨x, w', h⟩ : ∃ x w', unregistered.call (.scenario orderingRequest) = (.ok x, w') := by
    generalize unregistered.call (.scenario orderingRequest) = r at hreturns
    obtain ⟨y, w'⟩ := r
    cases y with
    | error p => cases hreturns
    | ok x => exact ⟨x, w', rfl⟩
  obtain ⟨hslot, ⟨w₁, saved, hteardown, hsaved, -, hrestored, -⟩, -⟩ := isolation hrun h
  have hidle : unregistered.call .teardown = (.ok .done, unregistered) := rfl
  cases hidle.symm.trans hteardown
  cases hconfig.symm.trans hsaved
  have hlost : unregistered.restored ⟨.ordering, 42, Config.mapScheduler, 1000⟩
      ⟨Config.builtInKernel, "tempo::Nope"⟩ = ⟨Config.builtInKernel, Config.mapScheduler⟩ := by
    decide +kernel
  exact ⟨x, w', h, hslot, hrestored.trans (congrArg Except.ok hlost)⟩

end World

end EventSim
