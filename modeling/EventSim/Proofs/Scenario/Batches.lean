import EventSim.Proofs.Facade.Configuration
import EventSim.Proofs.Scenario.Staging

/-!
# Scenarios one after another

Under the built-in registry and a configuration that validates, what a scenario answers can be told
from the request alone (`ScenarioRequest.reply`), and afterwards the slot is empty and the
configuration is the old one again.  So **scenarios that are run one after another answer what each
of them answers alone** (`Ready.scenes`), whichever they are and whatever they were asked.
-/

namespace EventSim

open Scenario

/-- What is to be reported of a run. -/
def ScenarioRun.verdict (run : ScenarioRun) : Except String (Nat × Time) :=
  match Registry.builtIn.scheduler run.scheduler with
  | .error e => .error e.message
  | .ok _ => .ok run.tally

/-- What is to be answered to a request. -/
def ScenarioRequest.reply (request : ScenarioRequest) : Reply :=
  match ScenarioRun.ofRequest? request with
  | none => .unknownScenario request.name
  | some run => .scenario (run.finish run.verdict)

namespace Registry

theorem eq_builtInKernel {name : String} (h : (builtIn.kernels.find? name).isSome) :
    name = Config.builtInKernel := by
  have hfind : builtIn.kernels.find? name =
      if name = Config.builtInKernel then some (.builtIn 0) else none :=
    NameTable.find?_cons [] _ name _
  rw [hfind] at h
  by_contra hne
  rw [if_neg hne] at h
  cases h

/-- A name that is none of the built-in ones is unknown. -/
theorem mem_builtInSchedulers {name : String} (h : (builtIn.schedulers.find? name).isSome) :
    name ∈ World.builtInSchedulers := by
  have hfind : builtIn.schedulers.find? name =
      if name = Config.heapScheduler then some .heap
      else if name = Config.listScheduler then some .list
      else if name = Config.mapScheduler then some .map else none := by
    rw [builtIn, NameTable.find?_cons, NameTable.find?_cons, NameTable.find?_cons]
    rfl
  rw [hfind] at h
  unfold World.builtInSchedulers
  grind

/-- A configuration that validates has built-in names. -/
theorem validate_builtIn {c : Config} (h : builtIn.validate c = .ok ()) :
    c.kernelType = Config.builtInKernel ∧ c.schedulerType ∈ World.builtInSchedulers := by
  obtain ⟨hk, hs⟩ := validate_eq_ok_iff.1 h
  exact ⟨eq_builtInKernel hk, mem_builtInSchedulers hs⟩

end Registry

namespace World

variable {w w' : World} {c : Config} {run : ScenarioRun} {request : ScenarioRequest}

/-- Scenarios can be run: the slot is empty, and the names are the built-in ones. -/
structure Ready (c : Config) (w : World) : Prop where
  orderly : w.Orderly
  slot : w.slot = none
  registry : w.registry = .builtIn
  config : w.config = .ok c

theorem call_scenario_unknown (h : ScenarioRun.ofRequest? request = none) (w : World) :
    w.call (.scenario request) = (.ok (.unknownScenario request.name), w) := by
  refine call_of_leads ?_
  have hstart : Machine.ofCall w (.scenario request) =
      ⟨w, [], some (.ok (.unknownScenario request.name))⟩ := by
    simp only [Machine.ofCall, Machine.start, h]
    rfl
  rw [hstart]
  exact .refl _

theorem Ready.call_teardown (h : w.Ready c) : w.call .teardown = (.ok .done, w) := by
  rw [World.call_teardown, h.slot]

/-- A scheduler that is not registered ends a scenario at once. -/
theorem Ready.call_unregistered (h : w.Ready c) {e : SimError}
    (hrun : ScenarioRun.ofRequest? request = some run)
    (he : Registry.builtIn.scheduler run.scheduler = .error e) :
    (w.call (.scenario request)).1 = .ok (.scenario (run.finish (.error e.message))) := by
  have hrehearse : w.rehearse run = (.ok (.error e.message), w) := by
    rw [rehearse, chooseScheduler_of_config h.config, h.registry, he]
  obtain ⟨v, hrestore⟩ : ∃ v, w.restore run c (.error e.message) =
      (.ok (.scenario (run.finish (.error e.message))), v) := by
    obtain ⟨v, hv, -⟩ := restore_eq h.config
    exact ⟨v, hv⟩
  rw [call_scenario hrun, stage, h.call_teardown]
  dsimp only
  rw [h.config]
  dsimp only
  rw [hrehearse]
  dsimp only
  rw [h.call_teardown]
  dsimp only
  rw [hrestore]

theorem events_pos (hrun : ScenarioRun.ofRequest? request = some run) : 0 < run.events := by
  obtain ⟨s, -, rfl⟩ := Option.map_eq_some_iff.1 hrun
  unfold ScenarioRequest.eventCount
  cases request.events with
  | none => exact Nat.zero_lt_succ _
  | some n => exact Nat.lt_of_lt_of_le Nat.zero_lt_one (Nat.le_max_right n 1)

/-- The world in which the plan of a scenario is followed. -/
theorem Ready.chosen (h : w.Ready c) (scheduler : String) :
    { w with written := some { c with schedulerType := scheduler }, observed := [] }.Orderly :=
  ⟨h.orderly.owned.aside ⟨rfl, rfl, rfl, rfl, rfl⟩, ⟨h.orderly.housed.slot, h.orderly.housed.named⟩,
    h.orderly.holds⟩

/-- With a scheduler that is registered, a scenario passes. -/
theorem Ready.call_registered (h : w.Ready c) (hk : c.kernelType = Config.builtInKernel)
    (hrun : ScenarioRun.ofRequest? request = some run) {b : Backend}
    (hb : Registry.builtIn.scheduler run.scheduler = .ok b) :
    (w.call (.scenario request)).1 = .ok (.scenario (run.finish (.ok run.tally))) := by
  have hknown : run.scheduler ∈ builtInSchedulers :=
    Registry.mem_builtInSchedulers (Registry.scheduler_eq_ok_iff.1 ⟨b, hb⟩)
  have hconfig : ({ c with schedulerType := run.scheduler } : Config) =
      ⟨Config.builtInKernel, run.scheduler⟩ := by rw [hk]
  have hsucceeds := (h.chosen run.scheduler).succeeds h.slot h.registry
    (congrArg Except.ok hconfig) rfl hknown (events_pos hrun)
  exact call_scenario_of_succeeds hrun h.call_teardown h.config (h.registry ▸ hb) hsucceeds

/-- **A scenario answers what is to be answered, and afterwards others can be run.** -/
theorem Ready.call (h : w.Ready c) (hv : Registry.builtIn.validate c = .ok ())
    (request : ScenarioRequest) :
    (w.call (.scenario request)).1 = .ok request.reply ∧
      (w.call (.scenario request)).2.Ready c := by
  obtain ⟨hk, -⟩ := Registry.validate_builtIn hv
  have horderly : (w.call (.scenario request)).2.Orderly := h.orderly.call trivial
  unfold ScenarioRequest.reply
  cases hrun : ScenarioRun.ofRequest? request with
  | none =>
    rw [call_scenario_unknown hrun]
    exact ⟨rfl, h⟩
  | some run =>
    have hreply : (w.call (.scenario request)).1 =
        .ok (.scenario (run.finish run.verdict)) := by
      unfold ScenarioRun.verdict
      cases hs : Registry.builtIn.scheduler run.scheduler with
      | error e => exact h.call_unregistered hrun hs
      | ok b => exact h.call_registered hk hrun hs
    refine ⟨hreply, ?_⟩
    generalize hcall : w.call (.scenario request) = r at hreply horderly
    obtain ⟨x, v⟩ := r
    dsimp only at hreply horderly ⊢
    subst hreply
    obtain ⟨hslot, ⟨w₁, saved, ht, hsaved, hregistry, hrestored, -⟩, -⟩ := isolation hrun hcall
    cases h.call_teardown.symm.trans ht
    cases h.config.symm.trans hsaved
    have hvalid : w.registry.validate c = .ok () := h.registry ▸ hv
    exact ⟨horderly, hslot, hregistry.trans h.registry,
      hrestored.trans (congrArg Except.ok (restored_eq_iff.2 (.inl hvalid)))⟩

/-- **Scenarios that are run one after another answer what each of them answers alone.** -/
theorem Ready.scenes (h : w.Ready c) (hv : Registry.builtIn.validate c = .ok ())
    (requests : List ScenarioRequest) :
    (w.scenes (requests.map .scenario)).map Scene.answer =
      requests.map fun request => .ok request.reply := by
  induction requests generalizing w with
  | nil => rfl
  | cons request rest ih =>
    obtain ⟨hreply, hafter⟩ := h.call hv request
    rw [List.map_cons, List.map_cons, World.scenes, List.map_cons, ih hafter]
    exact congrArg (· :: _) hreply

/-- A process in which nothing but the configuration was done can run scenarios. -/
theorem Unused.ready (h : w.Unused) (hr : w.registry = .builtIn) (hc : w.config = .ok c) :
    w.Ready c := ⟨h.orderly, h.slot, hr, hc⟩

end World

end EventSim
