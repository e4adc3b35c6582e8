import EventSim.Proofs.Scenario.Isolation
import EventSim.Proofs.Scenario.Workloads
import EventSim.Proofs.Scheduler.Priority

/-!
# Scenarios that pass

Two scenarios book many events, and one hands a kernel over.  Under the built-in registry and the
built-in kernel, **they pass with every built-in scheduler, for every seed and every number of
events** (`bulk_scenarios_pass`), and what they report is worked out here: the events that are kept,
and the time of the last of them.

The kernel of the facade is built by the first event that is booked.  From there on the plan is a
list of calls on a facade with a known kernel.
-/

namespace EventSim

theorem Scheduler.backend_migrate {α : Type} (s : Scheduler α) (b : Backend) :
    (s.migrate b).backend = b := by
  have hfold (l : List (Event α)) (t : Scheduler α) : (l.foldl insert t).backend = t.backend := by
    induction l generalizing t with
    | nil => rfl
    | cons e l ih => rw [List.foldl_cons, ih, backend_insert]
  rw [migrate, hfold]
  cases b <;> rfl

namespace World

open Scenario

variable {b : Backend} {w w₁ v : World} {k : Kernel Action} {T : Timetable} {n executed : Nat}
  {time : Time} {scheduler : String}

/-- A plan is followed to its end, with this outcome, and a teardown returns then. -/
def Succeeds (w : World) (plan : List Probe) (executed : Nat) (time : Time) : Prop :=
  ∃ v u, w.follow plan [] = (.ok (.ok (executed, time)), v) ∧ v.call .teardown = (.ok .done, u)

/-- After a plan, the kernel in the slot has no teardown events. -/
theorem Serves.succeeds {plan : List Probe} (h : v.Serves k) (ht : k.teardowns = [])
    (hfollow : w.follow plan [] = (.ok (.ok (executed, time)), v)) :
    w.Succeeds plan executed time := by
  obtain ⟨u, hu⟩ := h.call_teardown ht
  exact ⟨v, u, hfollow, hu⟩

/-! ### Events that are booked -/

theorem Vacant.call_schedule_eq (h : w.Vacant b) (timing : Timing) (name : HandleName)
    (a : Action) : w.call (.schedule .facade timing name a) =
      (w.built b).call (.schedule .facade timing name a) := by
  rw [call_of_not_drives rfl, call_of_not_drives rfl, World.perform, World.perform, h.schedule_eq]

theorem booked_built (T : Timetable) (hb : b.isBuiltIn = true) (ho : w.observed = []) :
    (w.built b).Booked T 0 [] ((Kernel.fresh w.engines.length 0).attach b) where
  serves := ⟨rfl, engine?_withKernel w b, (Kernel.sound_fresh _ _).attach hb⟩
  books := Kernel.books_fresh T hb _ _
  handle _ hi := absurd hi (Nat.not_lt_zero _)
  observed := ho

/-- The first event that is booked builds the kernel, and the others follow. -/
theorem Vacant.passes_probes (h : w.Vacant b) (hb : b.isBuiltIn = true) (ho : w.observed = [])
    (T : Timetable) (hn : 0 < n) :
    ∃ v k replies, w.Passes ((List.range n).map T.probe) [] v replies ∧
      v.Booked T n (List.range n) k := by
  obtain ⟨v, k, replies, hp, hv⟩ := (booked_built T hb ho).passes_probes n []
  refine ⟨v, k, replies, fun left => ?_, hv⟩
  have hbuilt := hp left
  obtain ⟨m, rfl⟩ := Nat.exists_eq_add_one_of_ne_zero (Nat.ne_of_gt hn)
  rw [List.range_succ_eq_map, List.map_cons, List.cons_append] at hbuilt ⊢
  rw [← hbuilt, follow, follow]
  have hcall : w.call (T.probe 0).command = (w.built b).call (T.probe 0).command :=
    h.call_schedule_eq _ _ _
  rw [hcall]

/-! ### Ties -/

/-- All events at one time, each noting its number. -/
def ties : Timetable := ⟨fun _ => ticks 10, fun i => [.number i], fun _ => by decide⟩

theorem firstOutOfOrder_range' (i n : Nat) :
    firstOutOfOrder i ((List.range' i n).map fun j : Nat => .number j) = none := by
  induction n generalizing i with
  | zero => rfl
  | succ n ih =>
    rw [List.range'_succ, List.map_cons, firstOutOfOrder, if_pos rfl]
    exact ih (i + 1)

theorem inOrder_account (n : Nat) (replies : List Reply) :
    inOrder n (.observations (ties.account (List.range n)) :: replies) = none := by
  have haccount : ties.account (List.range n) =
      (List.range' 0 n).map fun j : Nat => .number j := by
    rw [Timetable.account, ← List.range_eq_range']
    exact List.flatMap_pure_eq_map _ _
  rw [inOrder, haccount, if_neg (by simp), firstOutOfOrder_range']

theorem pairwise_ties (n : Nat) :
    ((List.range n).map ties.event).Pairwise fun x y => x.key.Before y.key := by
  rw [List.pairwise_map]
  exact List.pairwise_lt_range.imp fun h => .inr ⟨rfl, Nat.succ_lt_succ h⟩

theorem lastTime_ties (hn : 0 < n) :
    Kernel.lastTime .zero ((List.range n).map ties.event) = ticks 10 := by
  obtain ⟨m, rfl⟩ := Nat.exists_eq_add_one_of_ne_zero (Nat.ne_of_gt hn)
  rw [List.range_succ, List.map_append, Kernel.lastTime, List.foldl_append]
  rfl

/-- All of the events run in the order in which they were booked. -/
theorem Vacant.succeeds_fifoTies (h : w.Vacant b) (hb : b.isBuiltIn = true)
    (ho : w.observed = []) (hn : 0 < n) : w.Succeeds (fifoTies n) n (ticks 10) := by
  obtain ⟨v, k, replies, hbooking, hv⟩ := h.passes_probes hb ho ties hn
  obtain ⟨u, k', hrun, hserves, hteardowns, hexecuted, hnow, hnotes⟩ :=
    hv.call_run (.refl _) (pairwise_ties n)
  rw [List.length_range] at hexecuted
  rw [lastTime_ties hn] at hnow
  have hsees : inOrder n (.observations u.observed.reverse :: .done :: replies) = none := by
    rw [hnotes]
    exact inOrder_account n _
  have htail : v.Passes [runs, ⟨.observations, inOrder n⟩, captured] replies u _ :=
    .cons hrun rfl (.cons (Serves.call_observations u) hsees (.single hserves.call_capture rfl))
  have hend := (hbooking.append htail).follow
  rw [show outcome _ = (k'.executed, k'.now) from rfl, hexecuted, hnow] at hend
  exact hserves.succeeds hteardowns hend

/-! ### Random loads -/

/-- The events of a workload are booked, and then they meet their fates. -/
theorem randomLoad_eq (l : List (Nat × Random.Fate)) :
    randomLoad l =
      (List.range l.length).map (timetable l).probe ++
        (List.range l.length).filterMap (fun i => fateCommand i (fateOf l i)) ++
        [runs, ⟨.observations, follows (expectedRun l)⟩,
          ⟨.query .facade .executed, isCount (expectedRun l).length fun n =>
            "event_count " ++ n ++ " vs " ++ toString (expectedRun l).length⟩,
          captured] := by
  rw [randomLoad, zipIdx_eq, List.map_map, List.filterMap_map]
  rfl

/-- The events that are kept run in the order that is expected, whatever the delays below a thousand
and the fates are. -/
theorem Vacant.succeeds_randomLoad (h : w.Vacant b) (hb : b.isBuiltIn = true)
    (ho : w.observed = []) {l : List (Nat × Random.Fate)} (hbound : ∀ x ∈ l, x.1 < 1000)
    (hn : 0 < l.length) :
    w.Succeeds (randomLoad l) (Random.keptDelays l).length
      (ticks (Random.longest (Random.keptDelays l))) := by
  obtain ⟨v, k, replies, hbooking, hv⟩ := h.passes_probes hb ho (timetable l) hn
  obtain ⟨v', k', replies', hfates, hv'⟩ :=
    hv.passes_fates (fateOf l) (List.range l.length) (fun i hi => List.mem_range.1 hi) replies
  have hkept : ((List.range l.length).filter fun i => i ∈ List.range l.length →
      fateOf l i = .kept) = keptOf l := by
    rw [keptOf]
    refine List.filter_congr fun i hi => ?_
    rw [decide_eq_decide]
    exact ⟨fun h => h hi, fun h _ => h⟩
  rw [hkept] at hv'
  obtain ⟨u, k'', hrun, hserves, hteardowns, hexecuted, hnow, hnotes⟩ :=
    hv'.call_run (perm_runOrder l) (pairwise_timetable hbound)
  have hcount : (keptOf l).length = (Random.keptDelays l).length := by
    rw [keptDelays_eq, List.length_map]
  have hexpected : (expectedRun l).length = (keptOf l).length := by
    rw [(perm_expectedRun l).length_eq, List.length_map]
  rw [lastTime_runOrder] at hnow
  have hsees : follows (expectedRun l) (.observations u.observed.reverse :: .done :: replies') =
      none := by
    rw [hnotes]
    exact follows_account hbound _
  let failure (n : String) : String :=
    "event_count " ++ n ++ " vs " ++ toString (expectedRun l).length
  have hcounts : isCount (expectedRun l).length failure
      (.count k''.executed :: .observations u.observed.reverse :: .done :: replies') = none := by
    rw [hexecuted, hexpected]
    exact if_pos rfl
  have hquery : u.call (.query .facade .executed) = (.ok (.count k''.executed), u) :=
    hserves.call_query hserves.find .executed
  have htail : v'.Passes
      [runs, ⟨.observations, follows (expectedRun l)⟩,
        ⟨.query .facade .executed, isCount (expectedRun l).length failure⟩,
        captured] replies' u _ :=
    .cons hrun rfl <| .cons (Serves.call_observations u) hsees <| .cons hquery hcounts <|
      .single hserves.call_capture rfl
  have hend := ((hbooking.append hfates).append htail).follow
  rw [show outcome _ = (k''.executed, k''.now) from rfl, hexecuted, hnow, hcount] at hend
  rw [← randomLoad_eq] at hend
  exact hserves.succeeds hteardowns hend

/-! ### Kernels that are handed over -/

theorem surroundings_attach (w : World) (id : KernelId) (b : Backend) :
    (w.attach id b).observed = w.observed ∧ (w.attach id b).named = w.named ∧
      (w.attach id b).regime = w.regime := by
  unfold World.attach
  split
  · exact ⟨rfl, rfl, rfl⟩
  · dsimp only
    split <;> exact ⟨rfl, rfl, rfl⟩

theorem engine?_attach {id : KernelId} (h : w.engine? id = some (.builtIn false k)) :
    (w.attach id b).engine? id = some (.builtIn false (k.attach b)) := by
  have hattach : w.attach id b = w.setEngine id (.builtIn false (k.attach b)) := by
    simp only [World.attach, h]
    rfl
  rw [hattach]
  exact engine?_setEngine_self h _

theorem lookup_of_named {name : KernelName} (h : v.named = w.named) :
    v.lookup name = w.lookup name := by
  simp only [World.lookup, countNumbered, h]

theorem find_of_lookup {name : KernelName} {id : KernelId} (h : w.lookup name = .ok id) :
    w.find (.kernel name) = .ok (some id) := by
  simp only [World.find, h]

/-- A kernel that was just made is handed over under a name. -/
theorem passes_handover (hs : w.slot = none) {c : Config} (hc : w.config = .ok c)
    (hb : w.registry.scheduler c.schedulerType = .ok b) (hbuilt : b.isBuiltIn = true)
    (systemId : UInt32) :
    ∃ v replies, w.Passes [⟨.build (some .injected) (.builtIn systemId), anything⟩,
        ⟨.install (.held .injected), accepted⟩] [] v replies ∧
      v.Serves ((Kernel.fresh w.engines.length systemId).attach b) ∧
      v.lookup .injected = .ok w.engines.length ∧ v.observed = w.observed ∧
      v.regime = w.regime := by
  let u := (w.build (some .injected) (.builtIn systemId)).2
  have hlookup : u.lookup .injected = .ok w.engines.length := lookup_build w _
  have hinstall : u.install w.engines.length = .ok (.ok (u.occupy w.engines.length b)) := by
    have hu : u.config = .ok c := hc
    have hub : u.registry.scheduler c.schedulerType = .ok b := hb
    have hus : u.slot = none := hs
    simp only [install, hu, hub, hus]
  have hbuild : w.call (.build (some .injected) (.builtIn systemId)) =
      (.ok (.count w.countNumbered), u) := by
    rw [call_of_not_drives rfl]
    rfl
  have hhand : u.call (.install (.held .injected)) =
      (.ok .done, u.occupy w.engines.length b) := by
    rw [call_of_not_drives rfl]
    simp only [World.perform, installFrom, hlookup, hinstall]
  obtain ⟨hobserved, hnamed, hregime⟩ :=
    surroundings_attach { u with slot := some w.engines.length } w.engines.length b
  have hslot : (u.occupy w.engines.length b).slot = some w.engines.length :=
    slot_of_places (places_attach { u with slot := some w.engines.length } w.engines.length b)
  have hmade : ({ u with slot := some w.engines.length } : World).engine? w.engines.length =
      some (.builtIn false (.fresh w.engines.length systemId)) := List.getElem?_concat_length
  have hengine : (u.occupy w.engines.length b).engine? w.engines.length =
      some (.builtIn false ((Kernel.fresh w.engines.length systemId).attach b)) :=
    engine?_attach hmade
  exact ⟨u.occupy w.engines.length b, _, .cons hbuild rfl (.single hhand rfl),
    ⟨hslot, hengine, (Kernel.sound_fresh _ _).attach hbuilt⟩,
    (lookup_of_named hnamed).trans hlookup, hobserved, hregime⟩

/-- Another kernel is refused. -/
theorem Serves.call_install_fresh (h : w.Serves k) {c : Config} (hc : w.config = .ok c)
    (hb : w.registry.scheduler c.schedulerType = .ok b) (systemId : UInt32) :
    ∃ v, w.call (.install (.fresh (.builtIn systemId))) = (.ok (.refused .kernelPresent), v) ∧
      v.Serves k ∧ v.surroundings = w.surroundings := by
  let v := (w.make (.builtIn systemId)).2
  have hinstall : v.install w.engines.length = .ok (.error .kernelPresent) := by
    have hv : v.config = .ok c := hc
    have hvb : v.registry.scheduler c.schedulerType = .ok b := hb
    have hvs : v.slot = some k.id := h.slot
    simp only [install, hv, hvb, hvs]
  have hengine : v.engine? k.id = some (.builtIn false k) := by
    have hlt : k.id < w.engines.length := (List.getElem?_eq_some_iff.1 h.engine).1
    exact (List.getElem?_append_left hlt).trans h.engine
  have hperform : w.perform (.install (.fresh (.builtIn systemId))) =
      (.ok (.refused .kernelPresent), v) := by
    have hmade : (w.make (.builtIn systemId)).2.install (w.make (.builtIn systemId)).1 =
        .ok (.error .kernelPresent) := hinstall
    simp only [World.perform, installFrom, hmade, v]
  refine ⟨v, ?_, ⟨h.slot, hengine, h.sound⟩, rfl⟩
  rw [call_of_not_drives rfl, hperform]

/-- One event, which notes nothing. -/
def lone : Timetable := ⟨fun _ => ticks 4, fun _ => [], fun _ => by decide⟩

/-- Questions to the kernel that was handed over, under its name and through the facade. -/
theorem Serves.passes_questions (h : w.Serves k) (hlookup : w.lookup .injected = .ok k.id)
    (hb : w.registry.scheduler scheduler = .ok b) (hbackend : k.scheduler.backend = b)
    (replies : List Reply) :
    ∃ replies', w.Passes
      [⟨.registry (.lookupScheduler scheduler), accepted⟩, ⟨.backendName .injected, sameBackend⟩,
        ⟨.query injected .identity, anything⟩,
        ⟨.query .facade .identity, sameIdentity "facade replaced the injected kernel"⟩,
        ⟨.query .facade .systemId, isSystem k.systemId⟩] replies w replies' := by
  have hname : w.call (.registry (.lookupScheduler scheduler)) = (.ok (.name b.name), w) := by
    rw [call_of_not_drives rfl]
    simp only [World.perform, enroll, hb]
  have hown : w.call (.backendName .injected) = (.ok (.name b.name), w) := by
    rw [call_of_not_drives rfl, World.perform]
    simp only [hlookup, h.engine, Option.bind_some, Engine.backendName, hbackend,
      Option.getD_some]
  have hfind : w.find injected = .ok (some k.id) := find_of_lookup hlookup
  have hidentity {t : Target} (ht : w.find t = .ok (some k.id)) :
      w.call (.query t .identity) = (.ok (.identity k.id), w) := h.call_query ht .identity
  have hsystem : w.call (.query .facade .systemId) = (.ok (.systemId k.systemId), w) :=
    h.call_query h.find .systemId
  have hsame : sameBackend (.name b.name :: .name b.name :: replies) = none := if_pos rfl
  let named := Reply.name b.name :: .name b.name :: replies
  have hone : sameIdentity "facade replaced the injected kernel"
      (.identity k.id :: .identity k.id :: named) = none := if_pos rfl
  have hnumber : isSystem k.systemId
      (.systemId k.systemId :: .identity k.id :: .identity k.id :: named) = none := if_pos rfl
  exact ⟨_, .cons hname rfl <| .cons hown hsame <| .cons (hidentity hfind) rfl <|
    .cons (hidentity h.find) hone <| .single hsystem hnumber⟩

/-- One event of the kernel that was handed over is booked and runs. -/
theorem Serves.passes_lone (h : w.Serves k) (hlookup : w.lookup .injected = .ok k.id)
    (hbooks : k.Books lone 0 []) (replies : List Reply) :
    ∃ v k' replies', w.Passes [lone.probe 0, runs,
        ⟨.query injected .now, isTime 4 fun _ => "events did not reach the injected kernel"⟩,
        captured] replies v (.captured 1 (ticks 4) :: replies') ∧
      v.Serves k' ∧ k'.teardowns = [] := by
  obtain ⟨k₁, hbook, hid, hbooks₁⟩ := hbooks.schedule
  obtain ⟨u, hbooked, hu, husur⟩ := h.call_schedule (.numbered 0) hbook hid hbooks₁.sound
  obtain ⟨v, k₂, hrun, hv, hran, hvsur⟩ := hu.call_run hbooks₁.notes
  have hagenda : k₁.agenda = [lone.event 0] :=
    hbooks₁.agenda_eq (.refl _) (List.pairwise_singleton _ _)
  have hnow : k₂.now = ticks 4 := by
    rw [hran.now_eq, hagenda]
    rfl
  have hexecuted : k₂.executed = 1 := by
    rw [hran.executed_eq, hagenda, hbooks₁.executed_eq]
    rfl
  have hnamed : v.named = w.named :=
    (congrArg Surroundings.named hvsur).trans (congrArg Surroundings.named husur)
  have hfind : v.find injected = .ok (some k₂.id) := by
    rw [hran.id_eq, hid]
    exact find_of_lookup ((lookup_of_named hnamed).trans hlookup)
  have hquery : v.call (.query injected .now) = (.ok (.time k₂.now), v) := hv.call_query hfind .now
  have hcapture : v.call .capture = (.ok (.captured 1 (ticks 4)), v) := by
    rw [hv.call_capture, hexecuted, hnow]
  have htime : isTime 4 (fun _ => "events did not reach the injected kernel")
      (.time k₂.now :: .done :: .handle (lone.handle k.id 0) :: replies) = none := by
    have hticks : (ticks 4).ticks = 4 := by decide
    rw [hnow, isTime, if_pos hticks]
  exact ⟨v, k₂, _, .cons hbooked rfl <| .cons hrun rfl <| .cons hquery htime <|
    .single hcapture rfl, hv, hran.teardowns_eq.trans hbooks₁.teardowns_eq⟩

/-- The kernel that was handed over is the one that runs, and no second one is accepted. -/
theorem succeeds_injection (hs : w.slot = none) {c : Config} (hc : w.config = .ok c)
    (hscheduler : c.schedulerType = scheduler) (hb : w.registry.scheduler scheduler = .ok b)
    (hbuilt : b.isBuiltIn = true) (seed : UInt64) :
    w.Succeeds (injection seed scheduler) 1 (ticks 4) := by
  subst hscheduler
  obtain ⟨v, replies, hhand, hv, hlookup, -, hregime⟩ :=
    passes_handover hs hc hb hbuilt (seed % 1024).toUInt32
  have hvc : v.config = .ok c := (config_of_regime hregime).trans hc
  have hvb : v.registry.scheduler c.schedulerType = .ok b := registry_of_regime hregime ▸ hb
  obtain ⟨replies', hquestions⟩ :=
    hv.passes_questions hlookup hvb (Scheduler.backend_migrate _ b) replies
  obtain ⟨u, hsecond, hu, husur⟩ := hv.call_install_fresh hvc hvb 0
  have hrefused : v.Passes [⟨.install (.fresh (.builtIn 0)), refusedSecond⟩] replies' u
      (.refused .kernelPresent :: replies') := .single hsecond rfl
  have hulookup : u.lookup .injected = .ok w.engines.length :=
    (lookup_of_named (congrArg Surroundings.named husur)).trans hlookup
  obtain ⟨u', k', replies'', hlone, hu', hteardowns⟩ :=
    hu.passes_lone hulookup (Kernel.books_fresh lone hbuilt _ _) _
  have hend := (((hhand.append hquestions).append hrefused).append hlone).follow
  exact hu'.succeeds hteardowns hend

/-! ### Whole scenarios -/

/-- A scenario whose plan is followed to its end has passed. -/
theorem call_scenario_of_succeeds {request : ScenarioRequest} {run : ScenarioRun} {c : Config}
    (hrun : ScenarioRun.ofRequest? request = some run) (ht : w.call .teardown = (.ok .done, w₁))
    (hc : w₁.config = .ok c) (hs : w₁.registry.scheduler run.scheduler = .ok b)
    (h : Succeeds { w₁ with
      written := some { c with schedulerType := run.scheduler }, observed := [] } run.plan
      executed time) :
    (w.call (.scenario request)).1 = .ok (.scenario
      ⟨run.scenario, run.scheduler, run.seed, executed, time, none⟩) := by
  obtain ⟨v, u, hfollow, hlast⟩ := h
  have hrehearse : w₁.rehearse run = (.ok (.ok (executed, time)), v) := by
    rw [rehearse, chooseScheduler_of_config hc, hs]
    exact hfollow
  obtain ⟨hslot, -⟩ := slot_of_call_teardown ht
  obtain ⟨hsecluded, -, hchosen⟩ := (secluded_of_slot hslot).rehearse hc hrehearse
  have hregime : u.regime = v.regime := hsecluded.regime_teardown hlast
  obtain ⟨u', hrestore, -⟩ := restore_eq ((config_of_regime hregime).trans hchosen)
  rw [call_scenario hrun, stage, ht]
  dsimp only
  rw [hc]
  dsimp only
  rw [hrehearse]
  dsimp only
  rw [hlast]
  dsimp only
  rw [hrestore]
  rfl

/-- The names of the built-in schedulers. -/
def builtInSchedulers : List String :=
  [Config.mapScheduler, Config.heapScheduler, Config.listScheduler]

theorem scheduler_builtIn (h : scheduler ∈ builtInSchedulers) :
    ∃ b, Registry.builtIn.scheduler scheduler = .ok b ∧ b.isBuiltIn = true := by
  rcases List.mem_cons.1 h with rfl | h
  · exact ⟨.map, rfl, rfl⟩
  · rcases List.mem_cons.1 h with rfl | h
    · exact ⟨.heap, rfl, rfl⟩
    · obtain rfl := List.mem_singleton.1 h
      exact ⟨.list, rfl, rfl⟩

/-- **The scenarios with many events and the one that hands a kernel over pass**, whatever the seed,
the number of events and the built-in scheduler: all events run if none is withdrawn, those that are
kept if some are, and the last of them is the one with the longest delay. -/
theorem bulk_scenarios_pass {c : Config} (ht : w.call .teardown = (.ok .done, w₁))
    (hr : w₁.registry = .builtIn) (hc : w₁.config = .ok c)
    (hk : c.kernelType = Config.builtInKernel) (hs : scheduler ∈ builtInSchedulers)
    (seed : UInt64) (events : Nat) :
    let reply (name : String) := (w.call (.scenario ⟨name, seed, some scheduler, some events⟩)).1
    let n := max events 1
    let kept := Random.keptDelays (Random.workload seed n)
    reply "fifo_ties" = .ok (.scenario ⟨.fifoTies, scheduler, seed, n, ticks 10, none⟩) ∧
      reply "random_load" = .ok (.scenario
        ⟨.randomLoad, scheduler, seed, kept.length, ticks (Random.longest kept), none⟩) ∧
      reply "injection" = .ok (.scenario ⟨.injection, scheduler, seed, 1, ticks 4, none⟩) := by
  intro reply n kept
  have hn : 0 < n := Nat.lt_of_lt_of_le Nat.zero_lt_one (Nat.le_max_right events 1)
  obtain ⟨b, hb, hbuilt⟩ := scheduler_builtIn hs
  have hb₁ : w₁.registry.scheduler scheduler = .ok b := hr ▸ hb
  obtain ⟨hslot, -⟩ := slot_of_call_teardown ht
  let v : World := { w₁ with
    written := some { c with schedulerType := scheduler }, observed := [] }
  have hvacant : v.Vacant b := by
    refine ⟨hslot, { c with schedulerType := scheduler }, rfl, ?_, hb₁⟩
    show w₁.registry.kernel c.kernelType = _
    rw [hr, hk]
    rfl
  have hnamed (s : ScenarioId) (hname : ScenarioId.ofName? s.name = some s) :
      ScenarioRun.ofRequest? ⟨s.name, seed, some scheduler, some events⟩ =
        some ⟨s, seed, scheduler, n⟩ := by
    simp only [ScenarioRun.ofRequest?, hname]
    rfl
  have hinjection : v.Succeeds (injection seed scheduler) 1 (ticks 4) :=
    succeeds_injection hvacant.slot (c := { c with schedulerType := scheduler }) rfl rfl hb₁
      hbuilt seed
  refine ⟨?_, ?_, ?_⟩
  · exact call_scenario_of_succeeds (hnamed .fifoTies (by decide +kernel)) ht hc hb₁
      (hvacant.succeeds_fifoTies hbuilt rfl hn)
  · exact call_scenario_of_succeeds (hnamed .randomLoad (by decide +kernel)) ht hc hb₁
      (hvacant.succeeds_randomLoad hbuilt rfl (Random.workload_lt seed n) (by simpa using hn))
  · exact call_scenario_of_succeeds (hnamed .injection (by decide +kernel)) ht hc hb₁
      hinjection

/-- A random load of eight events on the binary heap: seven are kept, the last one at 950. -/
theorem bulk_scenarios_pass_heap :
    let w := pristine none
    w.call .teardown = (.ok .done, w) ∧ w.registry = .builtIn ∧ w.config = .ok .default ∧
      Config.heapScheduler ∈ builtInSchedulers ∧
      (w.call (.scenario ⟨"random_load", 42, some Config.heapScheduler, some 8⟩)).1 =
        .ok (.scenario ⟨.randomLoad, Config.heapScheduler, 42, 7, ticks 950, none⟩) := by
  intro w
  have hidle : w.call .teardown = (.ok .done, w) := rfl
  have hknown : Config.heapScheduler ∈ builtInSchedulers := List.mem_cons_of_mem _ List.mem_cons_self
  have hkept : Random.keptDelays (Random.workload 42 (max 8 1)) =
      [681, 950, 427, 627, 288, 149, 308] := by
    decide +kernel
  obtain ⟨-, hload, -⟩ := bulk_scenarios_pass hidle rfl rfl rfl hknown 42 8
  rw [hkept] at hload
  exact ⟨hidle, rfl, rfl, hknown, hload⟩

end World

end EventSim
