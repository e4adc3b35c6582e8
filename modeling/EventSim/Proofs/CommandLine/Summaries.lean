import EventSim.Proofs.CommandLine.Arguments
import EventSim.Proofs.CommandLine.Choices
import Mathlib.Data.List.ProdSigma

/-!
# What the program sums up

A batch is prepared in a world in which nothing was done but configuring, so each of its scenarios
answers what it answers alone, and the batch comes to its end.  What is printed and how the program
ends is read off the list of results: **one independent result for each pair of a scheduler and a
scenario that were chosen, in order, and the counts of those that passed and failed**
(`batch_of_independent_runs`).
-/

namespace EventSim

/-- Nothing was done in the world but configuring it, under the built-in registry. -/
structure World.Configured (c : Config) (w : World) : Prop where
  unused : w.Unused
  registry : w.registry = .builtIn
  config : w.config = .ok c

theorem World.Configured.ready {c : Config} {w : World} (h : w.Configured c) : w.Ready c :=
  h.unused.ready h.registry h.config

namespace CommandLine

variable {c : Config} {b : Batch} {o : Options} {environment : Option String} {clock : UInt64}

/-! ### Execution -/

/-- The request for one run. -/
def Batch.request (b : Batch) (x : String × ScenarioId) : ScenarioRequest :=
  ⟨x.2.name, b.seed, some x.1, some b.options.chosenEvents⟩

/-- A scenario under its name. -/
def Batch.result (b : Batch) (x : String × ScenarioId) : ScenarioResult :=
  let run : ScenarioRun := ⟨x.2, b.seed, x.1, max b.options.chosenEvents 1⟩
  run.finish run.verdict

/-- However a run ends, its result says what was run. -/
theorem Batch.result_belongs (b : Batch) (x : String × ScenarioId) :
    (b.result x).scheduler = x.1 ∧ (b.result x).scenario = x.2 ∧ (b.result x).seed = b.seed := by
  unfold result
  dsimp only
  cases ScenarioRun.verdict _ <;> exact ⟨rfl, rfl, rfl⟩

theorem Batch.reply_request (b : Batch) (x : String × ScenarioId) :
    (b.request x).reply = .scenario (b.result x) := by
  have hname : ScenarioId.ofName? x.2.name = some x.2 := by
    cases x.2 <;> decide +kernel
  have hrun : ScenarioRun.ofRequest? (b.request x) =
      some ⟨x.2, b.seed, x.1, max b.options.chosenEvents 1⟩ := by
    simp only [ScenarioRun.ofRequest?, Batch.request, hname]
    rfl
  rw [ScenarioRequest.reply, hrun]
  rfl

/-- **A batch comes to its end**, with the result that each scenario has alone. -/
theorem Batch.runAll_eq (hv : Registry.builtIn.validate c = .ok ()) (hb : b.world.Ready c)
    (pairs : List (String × ScenarioId)) :
    ∃ b', b.runAll pairs = .ok b' ∧ b'.options = b.options ∧
      b'.results = (pairs.map b.result).reverse ++ b.results := by
  induction pairs generalizing b with
  | nil => exact ⟨b, rfl, rfl, rfl⟩
  | cons x rest ih =>
    obtain ⟨hreply, hready⟩ := hb.call hv (b.request x)
    rw [b.reply_request] at hreply
    generalize hcall : b.world.call (.scenario (b.request x)) = r at hreply hready
    obtain ⟨y, w⟩ := r
    dsimp only at hreply hready
    subst hreply
    obtain ⟨b₁, hone, hoptions, hseed, hworld, hresults⟩ : ∃ b₁, b.runOne x.1 x.2 = .ok b₁ ∧
        b₁.options = b.options ∧ b₁.seed = b.seed ∧ b₁.world = w ∧
          b₁.results = b.result x :: b.results := by
      have hcall' : b.world.call (.scenario
          ⟨x.2.name, b.seed, some x.1, some b.options.chosenEvents⟩) = (_, w) := hcall
      rw [Batch.runOne, hcall']
      exact ⟨_, rfl, rfl, rfl, rfl, rfl⟩
    obtain ⟨b', hall, hoptions', hresults'⟩ := ih (b := b₁) (hworld ▸ hready)
    have hsame : b₁.result = b.result := by
      funext y
      simp only [Batch.result, hoptions, hseed]
    refine ⟨b', ?_, hoptions'.trans hoptions, ?_⟩
    · rw [Batch.runAll, hone]
      exact hall
    · rw [hresults', hresults, hsame, List.map_cons, List.reverse_cons, List.append_assoc]
      rfl

/-! ### Summary -/

theorem Batch.resultJson_eq : Batch.resultJson = fun r => .object
    [("events_executed", .integer r.eventsExecuted),
      ("failure_reason", r.failure.elim .null .string),
      ("final_time", .integer r.finalTime.ticks), ("passed", .bool r.passed),
      ("scenario", .string r.scenario.name), ("scheduler", .string r.scheduler),
      ("seed", .integer r.seed.toNat)] := by
  funext r
  rw [resultJson]
  cases r.failure <;> rfl

/-- What is printed and how the program ends is read off the results. -/
theorem Batch.conclude_eq {results : List ScenarioResult} (h : b.results.reverse = results)
    (fault : Option FileFault) :
    let passed := (results.filter fun r => r.passed).length
    let failed := (results.filter fun r => !r.passed).length
    (b.conclude fault).exit.code = (if 0 < failed then 1 else 0) ∧
      (b.options.json = true → (b.conclude fault).stdout = String.ofList ((Json.Value.object
        [("failed", .integer failed), ("passed", .integer passed),
          ("results", .list (results.map resultJson)),
          ("total", .integer results.length)]).pretty ++ ['\n'])) := by
  intro passed failed
  have hfailures : b.failures = results.filter fun r => !r.passed := by rw [failures, h]
  have hlength : b.results.length = results.length := by rw [← h, List.length_reverse]
  have hcount : b.results.length - b.failures.length = passed := by
    rw [hlength, List.length_eq_length_filter_add ScenarioResult.passed, hfailures]
    exact Nat.add_sub_cancel _ _
  constructor
  · rw [conclude, hfailures]
    show (if (results.filter _).isEmpty = true then Exit.success else .failure).code =
      if 0 < (results.filter _).length then 1 else 0
    cases results.filter fun r => !r.passed <;> rfl
  · intro hjson
    rw [conclude, if_pos hjson, summaryJson, hcount, hfailures, h, hlength]

/-- The end of the program after its batch was carried out. -/
theorem exit_runIn {d : Folder} {arguments : List String} {b b' : Batch}
    (ho : Options.read arguments = .ok o)
    (hb : Batch.prepare o environment clock (d.read (o.config.getD "")) = .ok b)
    (hb' : b.carryOut = .ok b') :
    ∃ fault, (runIn d arguments environment clock).1 = b'.conclude fault := by
  unfold runIn
  rw [ho]
  dsimp only
  rw [hb]
  dsimp only
  rw [hb']
  dsimp only
  split
  · exact ⟨none, rfl⟩
  · split
    · exact ⟨_, rfl⟩
    · exact ⟨none, rfl⟩

/-- **A batch of scenarios is the concatenation of independent runs.**  Take the built-in registry
and a configuration `c` that validates.  Requests of any kind, made one after another of a process
in which nothing was done but configuring, are answered as each of them alone is by such a process.

The options of the program are what its arguments spell.  It can prepare a batch with the
configuration `c` exactly if the environment or the file has that configuration and the names of the
options choose scenarios and schedulers.  Then there is a list of results, one for each pair of a
scheduler and a scenario, all scenarios of the first scheduler first, and each is the result that
this scenario has alone with the seed and the number of events of the options.  The summary lists
these results, how many there are, and how many of them passed and failed, which makes all of them.
The program ends with 1 if one of them failed and with 0 otherwise. -/
theorem batch_of_independent_runs (c : Config) (hv : Registry.builtIn.validate c = .ok ()) :
    (∀ (w p : World) (requests : List ScenarioRequest), w.Configured c → p.Configured c →
      (w.scenes (requests.map .scenario)).map Scene.answer =
        requests.map fun request => (p.call (.scenario request)).1) ∧
    (∀ (arguments : List String) (o : Options), Options.read arguments = .ok o ↔
      ∃ settings, Spells none settings (arguments.map String.toList) ∧
        (settings.map Setting.flag).Nodup ∧ o = settings.foldl Options.put .none) ∧
    ∀ (d : Folder) (arguments : List String) (environment : Option String) (clock : UInt64)
      (o : Options), Options.read arguments = .ok o →
      ((∃ b, Batch.prepare o environment clock (d.read (o.config.getD "")) = .ok b ∧
        b.world.config = .ok c) ↔
        Configures d environment o.config c ∧ (∃ scenarios, ChoosesScenarios o.scenario scenarios) ∧
          ∃ schedulers, ChoosesSchedulers c o.scheduler schedulers) ∧
      ∀ (scenarios : List ScenarioId) (schedulers : List String),
        Configures d environment o.config c → ChoosesScenarios o.scenario scenarios →
        ChoosesSchedulers c o.scheduler schedulers →
        let seed := if o.seed = some 0 then clock else o.seed.getD 42
        let pairs := schedulers.flatMap fun scheduler => scenarios.map fun s => (scheduler, s)
        ∃ results : List ScenarioResult,
          List.Forall₂ (fun pair r => r.scheduler = pair.1 ∧ r.scenario = pair.2 ∧ r.seed = seed ∧
            ∀ p : World, p.Configured c → (p.call (.scenario
              ⟨pair.2.name, seed, some pair.1, some (o.events.getD 1000)⟩)).1 = .ok (.scenario r))
            pairs results ∧
          results.length = schedulers.length * scenarios.length ∧
          let passed := (results.filter fun r => r.passed).length
          let failed := (results.filter fun r => !r.passed).length
          passed + failed = results.length ∧
          let output := (runIn d arguments environment clock).1
          output.exit.code = (if 0 < failed then 1 else 0) ∧
          (o.json = true → output.stdout = String.ofList ((Json.Value.object
            [("failed", .integer failed), ("passed", .integer passed),
              ("results", .list (results.map fun r => .object
                [("events_executed", .integer r.eventsExecuted),
                  ("failure_reason", r.failure.elim .null .string),
                  ("final_time", .integer r.finalTime.ticks), ("passed", .bool r.passed),
                  ("scenario", .string r.scenario.name), ("scheduler", .string r.scheduler),
                  ("seed", .integer r.seed.toNat)])),
              ("total", .integer results.length)]).pretty ++ ['\n'])) := by
  refine ⟨fun w p requests hw hp => ?_, fun _ _ => Options.read_eq_ok_iff,
    fun d arguments environment clock o ho => ⟨?_, fun scenarios schedulers hc hs hl => ?_⟩⟩
  · rw [hw.ready.scenes hv]
    exact List.map_congr_left fun request _ => (hp.ready.call hv request).1.symm
  · simp only [Batch.prepare_eq_ok_iff hv]
    constructor
    · rintro ⟨b, hc, scenarios, schedulers, hs, hl, -⟩
      exact ⟨hc, ⟨scenarios, hs⟩, schedulers, hl⟩
    · rintro ⟨hc, ⟨scenarios, hs⟩, schedulers, hl⟩
      exact ⟨_, hc, scenarios, schedulers, hs, hl, rfl⟩
  · intro seed pairs
    let b := Batch.fresh o environment clock c scenarios schedulers
    obtain ⟨hb, hconfig⟩ := (Batch.prepare_eq_ok_iff hv).2 ⟨hc, scenarios, schedulers, hs, hl, rfl⟩
    have hready : b.world.Ready c := World.Unused.ready ⟨rfl, rfl, rfl, rfl⟩ rfl hconfig
    obtain ⟨b', hall, hoptions, hresults⟩ := Batch.runAll_eq hv hready pairs
    have hoptions : b'.options = o := hoptions
    have hreverse : b'.results.reverse = pairs.map b.result := by
      rw [hresults]
      exact (congrArg List.reverse (List.append_nil _)).trans (List.reverse_reverse _)
    obtain ⟨fault, hout⟩ := exit_runIn ho hb hall
    obtain ⟨hexit, hstdout⟩ := Batch.conclude_eq hreverse fault
    refine ⟨pairs.map b.result, ?_, ?_, (List.length_eq_length_filter_add _).symm,
      ?_, fun hjson => ?_⟩
    · refine List.forall₂_map_right_iff.2 (List.forall₂_same.2 fun pair _ => ?_)
      obtain ⟨hscheduler, hscenario, hseed⟩ := b.result_belongs pair
      refine ⟨hscheduler, hscenario, hseed, fun p hp => ?_⟩
      rw [← b.reply_request pair]
      exact (hp.ready.call hv (b.request pair)).1
    · rw [List.length_map]
      exact List.length_product schedulers scenarios
    · rw [hout]
      exact hexit
    · rw [hout, hstdout (hoptions.symm ▸ hjson), Batch.resultJson_eq]

/-- Results that stand beside the pairs belong to them. -/
theorem names_of_forall₂ {seed : UInt64} {p : String × ScenarioId → ScenarioResult → Prop}
    {pairs : List (String × ScenarioId)} {results : List ScenarioResult}
    (h : List.Forall₂ (fun x r => r.scheduler = x.1 ∧ r.scenario = x.2 ∧ r.seed = seed ∧ p x r)
      pairs results) :
    results.map (fun r => (r.scheduler, r.scenario, r.seed)) =
      pairs.map fun x => (x.1, x.2, seed) := by
  induction h with
  | nil => rfl
  | cons hr _ ih =>
    obtain ⟨hscheduler, hscenario, hseed, -⟩ := hr
    rw [List.map_cons, List.map_cons, ih, hscheduler, hscenario, hseed]

/-- Two runs, of which one has no scheduler; all scenarios under all schedulers; and a single run
with what is printed about it. -/
theorem batch_of_independent_runs_all :
    let w : World := .pristine none
    let requests : List ScenarioRequest :=
      [⟨"restart", 1, some "none", none⟩, ⟨"restart", 1, some Config.listScheduler, none⟩]
    let nine : List ScenarioId := [.ordering, .fifoTies, .cancel, .stopAt, .destroy,
      .contextPropagation, .injection, .restart, .randomLoad]
    Registry.builtIn.validate .default = .ok () ∧ w.Configured .default ∧
      (w.scenes (requests.map .scenario)).map Scene.answer =
        requests.map (fun request => (w.call (.scenario request)).1) ∧
      (∃ results : List ScenarioResult,
        results.map (fun r => (r.scheduler, r.scenario, r.seed)) =
          nine.map ("tempo::HeapScheduler", ·, 7) ++ nine.map ("tempo::ListScheduler", ·, 7) ++
            nine.map ("tempo::MapScheduler", ·, 7) ∧
        (runIn .empty ["--json", "--scheduler=all", "-s", "7"] none 0).1.exit.code =
          if 0 < (results.filter fun r => !r.passed).length then 1 else 0) ∧
      let arguments := ["-vs7", "-S", "STOP", "--json", "--scheduler", "tempo::ListScheduler"]
      (runIn .empty arguments none 0).1.exit.code = 0 ∧
      (runIn .empty arguments none 0).1.stdout = "\n".intercalate
        ["\x7b", "  \"failed\": 0,", "  \"passed\": 1,", "  \"results\": [", "    \x7b",
          "      \"events_executed\": 3,", "      \"failure_reason\": null,",
          "      \"final_time\": 3,", "      \"passed\": true,",
          "      \"scenario\": \"stop_at\",",
          "      \"scheduler\": \"tempo::ListScheduler\",", "      \"seed\": 7", "    \x7d", "  ],",
          "  \"total\": 1", "\x7d", ""] := by
  intro w requests nine
  have hv : Registry.builtIn.validate .default = .ok () := by decide
  have hw : w.Configured .default := ⟨⟨rfl, rfl, rfl, rfl⟩, rfl, rfl⟩
  obtain ⟨hscenes, -, hbatch⟩ := batch_of_independent_runs .default hv
  refine ⟨hv, hw, hscenes w w requests hw hw, ?_, ?_⟩
  · have ho : Options.read ["--json", "--scheduler=all", "-s", "7"] =
        .ok ⟨some 7, none, some "all", none, false, true, none, none⟩ := rfl
    obtain ⟨results, hpairs, -, -, hexit, -⟩ :=
      (hbatch .empty _ none 0 _ ho).2 _ _ (.environment rfl) .unasked .all
    exact ⟨results, names_of_forall₂ hpairs, hexit⟩
  · intro arguments
    have ho : Options.read arguments = .ok ⟨some 7, some "STOP", some "tempo::ListScheduler", none,
        true, true, none, none⟩ := rfl
    have hs : ChoosesScenarios (some "STOP") [.stopAt] := .named (.inr (by decide +kernel))
    have hl : ChoosesSchedulers .default (some "tempo::ListScheduler") ["tempo::ListScheduler"] :=
      .named (.inr (.inl rfl))
    obtain ⟨results, hpairs, -, -, hexit, hout⟩ :=
      (hbatch .empty arguments none 0 _ ho).2 _ _ (.environment rfl) hs hl
    obtain ⟨r, _, ⟨-, -, -, hr⟩, hnil, rfl⟩ := List.forall₂_cons_left_iff.1 hpairs
    cases hnil
    let b := Batch.fresh
      ⟨some 7, some "STOP", some "tempo::ListScheduler", none, true, true, none, none⟩ none 0
      .default [.stopAt] ["tempo::ListScheduler"]
    have hreply := (hw.ready.call hv (b.request ("tempo::ListScheduler", .stopAt))).1
    rw [b.reply_request] at hreply
    cases hreply.symm.trans (hr w hw)
    exact ⟨hexit.trans (by decide +kernel), (hout rfl).trans (by decide +kernel)⟩

end CommandLine

end EventSim
