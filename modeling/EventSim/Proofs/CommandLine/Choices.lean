import EventSim.CommandLine.Batch
import EventSim.Proofs.Scenario.Batches

/-!
# What the options choose

`Configures`, `ChoosesScenarios` and `ChoosesSchedulers` say which configuration, scenarios and
schedulers the options stand for.  **A batch can be prepared exactly if there are such choices, and
it consists of them** (`Batch.prepare_eq_ok_iff`).
-/

namespace EventSim

/-- A text names a scenario if it is the name or the short name in either case. -/
theorem ScenarioId.ofName?_eq_some_iff {text : String} {s : ScenarioId} :
    ofName? text = some s ↔
      s.name = text.map Char.toLower ∨ s.shortName? = some (text.map Char.toLower) := by
  unfold ofName?
  generalize text.map Char.toLower = lower
  constructor
  · intro h
    simpa using List.find?_some h
  · rintro (h | h) <;> cases s <;> cases h <;> decide

theorem Registry.find?_builtInSchedulers (name : String) :
    (builtIn.schedulers.find? name).isSome ↔
      name = Config.heapScheduler ∨ name = Config.listScheduler ∨ name = Config.mapScheduler := by
  constructor
  · intro h
    have hmem := mem_builtInSchedulers h
    unfold World.builtInSchedulers at hmem
    grind
  · rintro (rfl | rfl | rfl) <;> rfl

namespace World

variable {w v : World} {c before : Config}

/-- A configuration is written if the old one can be read and the new names are known. -/
theorem apply_eq_of_validate (hc : w.config = .ok before) (hv : w.registry.validate c = .ok ()) :
    w.apply c = (.ok .done, { w with written := some c }) := by
  rw [apply, hv]
  dsimp only
  rw [write, hc]

theorem load_eq_config_iff {content : FileContent} :
    w.load content = (.ok (.config c), v) ↔
      ∃ s before, content = .text s ∧ Config.ofJson s = .ok c ∧ w.registry.validate c = .ok () ∧
        w.config = .ok before ∧ v = { w with written := some c } := by
  constructor
  · intro h
    cases content with
    | text s =>
      rw [load] at h
      cases hs : Config.ofJson s with
      | error e =>
        rw [hs] at h
        cases h
      | ok c' =>
        rw [hs] at h
        dsimp only at h
        cases hv : w.registry.validate c' with
        | error e =>
          rw [apply, hv] at h
          cases h
        | ok _ =>
          cases hc : w.config with
          | error p =>
            rw [apply, hv] at h
            dsimp only at h
            rw [write, hc] at h
            cases h
          | ok before =>
            rw [apply_eq_of_validate hc hv] at h
            cases h
            exact ⟨s, before, rfl, hs, hv, rfl, rfl⟩
    | closed | undecodable => cases h
  · rintro ⟨s, before, rfl, hs, hv, hc, rfl⟩
    rw [load, hs]
    dsimp only
    rw [apply_eq_of_validate hc hv]

theorem config_pristine {environment : Option String} :
    (pristine environment).config = .ok c ↔ Config.ofEnvironment environment = .ok c := by
  rw [config, pristine]
  cases Config.ofEnvironment environment <;> simp

end World

namespace CommandLine

/-! ### Choices -/

/-- The configuration is that of the environment unless there is a file; then it is that of the
file, and the environment just has to be readable. -/
inductive Configures (d : Folder) (environment : Option String) : Option String → Config → Prop
  | environment {c : Config} (h : Config.ofEnvironment environment = .ok c) :
    Configures d environment none c
  | file {path s : String} {before c : Config}
    (h : Config.ofEnvironment environment = .ok before) (hd : d.read path = .text s)
    (hs : Config.ofJson s = .ok c) : Configures d environment (some path) c

/-- The scenarios are all nine, or the one whose name or short name is given in either case. -/
inductive ChoosesScenarios : Option String → List ScenarioId → Prop
  | unasked : ChoosesScenarios none
    [.ordering, .fifoTies, .cancel, .stopAt, .destroy, .contextPropagation, .injection, .restart,
      .randomLoad]
  | all : ChoosesScenarios (some "all")
    [.ordering, .fifoTies, .cancel, .stopAt, .destroy, .contextPropagation, .injection, .restart,
      .randomLoad]
  | named {name : String} {s : ScenarioId}
    (h : s.name = name.map Char.toLower ∨ s.shortName? = some (name.map Char.toLower)) :
    ChoosesScenarios (some name) [s]

/-- The schedulers are the configured one, all three, or the one whose name is given. -/
inductive ChoosesSchedulers (c : Config) : Option String → List String → Prop
  | unasked : ChoosesSchedulers c none [c.schedulerType]
  | all : ChoosesSchedulers c (some "all")
    [Config.heapScheduler, Config.listScheduler, Config.mapScheduler]
  | named {name : String}
    (h : name = Config.heapScheduler ∨ name = Config.listScheduler ∨ name = Config.mapScheduler) :
    ChoosesSchedulers c (some name) [name]

variable {c : Config} {o : Options}

theorem Options.scenarios_eq_some_iff {scenarios : List ScenarioId} :
    o.scenarios = some scenarios ↔ ChoosesScenarios o.scenario scenarios := by
  rw [Options.scenarios, chosenScenario]
  generalize o.scenario = option
  cases option with
  | none =>
    constructor
    · intro h
      cases h
      exact .unasked
    · rintro ⟨⟩
      rfl
  | some name =>
    rw [Option.getD_some]
    split_ifs with hall
    · subst hall
      constructor
      · intro h
        cases h
        exact .all
      · intro h
        cases h with
        | all => rfl
        | named h =>
          have hnone : ScenarioId.ofName? "all" = Option.none := by decide +kernel
          cases hnone.symm.trans (ScenarioId.ofName?_eq_some_iff.2 h)
    · rw [Option.map_eq_some_iff]
      constructor
      · rintro ⟨s, hs, rfl⟩
        exact .named (ScenarioId.ofName?_eq_some_iff.1 hs)
      · intro h
        cases h with
        | all => exact absurd rfl hall
        | @named _ s h => exact ⟨s, ScenarioId.ofName?_eq_some_iff.2 h, rfl⟩

theorem select_eq_ok_iff {w : World} (hr : w.registry = .builtIn) (hc : w.config = .ok c)
    {name : Option String} {schedulers : List String} :
    w.select name = .ok (.ok schedulers) ↔ ChoosesSchedulers c name schedulers := by
  unfold World.select
  cases name with
  | none =>
    rw [hc]
    constructor
    · intro h
      cases h
      exact .unasked
    · rintro ⟨⟩
      rfl
  | some name =>
    dsimp only
    rw [hr]
    split_ifs with hall
    · subst hall
      constructor
      · intro h
        cases h
        exact .all
      · intro h
        cases h with
        | all => rfl
        | named h => exact absurd h (by decide)
    · have hknown := Registry.find?_builtInSchedulers name
      rw [← Registry.scheduler_eq_ok_iff] at hknown
      constructor
      · intro h
        split at h <;> cases h
        rename_i b hb
        exact .named (hknown.1 ⟨b, hb⟩)
      · intro h
        cases h with
        | all => exact absurd rfl hall
        | named h =>
          obtain ⟨b, hb⟩ := hknown.2 h
          rw [hb]

theorem Options.chosenSeed_eq (clock : UInt64) :
    o.chosenSeed clock = if o.seed = some 0 then clock else o.seed.getD 42 := by
  unfold chosenSeed
  cases o.seed <;> simp

/-! ### Preparation -/

namespace Batch

variable {b : Batch} {d : Folder} {environment : Option String} {clock : UInt64}

/-- The batch of what was chosen, of which nothing has been run. -/
def fresh (o : Options) (environment : Option String) (clock : UInt64) (c : Config)
    (scenarios : List ScenarioId) (schedulers : List String) : Batch where
  options := o
  seed := if o.seed = some 0 then clock else o.seed.getD 42
  scenarios := scenarios
  schedulers := schedulers
  world := { World.pristine environment with
    written := o.config.map fun _ => c, trace := .start "tempo-sim" }
  results := []
  newestFirst :=
    (o.config.map fun path => loadedLine path c).toList ++ if o.json then [] else banner

theorem choose_eq_ok_iff {w : World} {log : List LogLine} (hr : w.registry = .builtIn)
    (hc : w.config = .ok c) : choose o clock w log = .ok b ↔ ∃ scenarios schedulers,
      ChoosesScenarios o.scenario scenarios ∧ ChoosesSchedulers c o.scheduler schedulers ∧
      b = ⟨o, if o.seed = some 0 then clock else o.seed.getD 42, scenarios, schedulers,
        { w with trace := .start "tempo-sim" }, [], log⟩ := by
  simp only [← Options.scenarios_eq_some_iff, ← select_eq_ok_iff hr hc, ← Options.chosenSeed_eq]
  unfold choose
  cases o.scenarios with
  | none => exact iff_of_false (fun h => by cases h) fun ⟨_, _, h, _⟩ => by cases h
  | some scenarios =>
    dsimp only
    constructor
    · intro h
      split at h
      · cases h
      · cases h
      · rename_i schedulers hs
        cases h
        exact ⟨scenarios, schedulers, rfl, hs, rfl⟩
    · rintro ⟨_, schedulers, hscenarios, hs, rfl⟩
      cases hscenarios
      rw [hs]

/-- Choosing does not touch the configuration. -/
theorem config_choose {w : World} {log : List LogLine} (h : choose o clock w log = .ok b) :
    b.world.config = w.config := by
  unfold choose at h
  split at h
  · cases h
  · split at h <;> cases h
    rfl

theorem configure_eq_ok_iff {w v : World} {log log' : List LogLine} {path : String}
    {content : FileContent} :
    configure w log path content = .ok (v, log') ↔
      ∃ c, w.load content = (.ok (.config c), v) ∧ log' = loadedLine path c :: log := by
  unfold configure
  constructor
  · intro h
    split at h <;> cases h
    rename_i c hl
    exact ⟨c, hl, rfl⟩
  · rintro ⟨c, hl, rfl⟩
    rw [hl]

/-- **A batch can be prepared exactly if there is something to choose.** -/
theorem prepare_eq_ok_iff (hv : Registry.builtIn.validate c = .ok ()) :
    prepare o environment clock (d.read (o.config.getD "")) = .ok b ∧ b.world.config = .ok c ↔
      Configures d environment o.config c ∧ ∃ scenarios schedulers,
        ChoosesScenarios o.scenario scenarios ∧ ChoosesSchedulers c o.scheduler schedulers ∧
        b = fresh o environment clock c scenarios schedulers := by
  unfold prepare fresh
  cases o.config with
  | none =>
    dsimp only
    constructor
    · rintro ⟨h, hc⟩
      rw [config_choose h] at hc
      exact ⟨.environment (World.config_pristine.1 hc), (choose_eq_ok_iff rfl hc).1 h⟩
    · rintro ⟨⟨hc⟩, h⟩
      have hc := World.config_pristine.2 hc
      have hb := (choose_eq_ok_iff rfl hc).2 h
      exact ⟨hb, (config_choose hb).trans hc⟩
  | some path =>
    dsimp only [Option.getD_some]
    constructor
    · rintro ⟨h, hc⟩
      split at h
      · cases h
      · rename_i w log hconfigure
        obtain ⟨c', hl, rfl⟩ := configure_eq_ok_iff.1 hconfigure
        obtain ⟨s, before, hd, hs, -, hbefore, rfl⟩ := World.load_eq_config_iff.1 hl
        rw [config_choose h] at hc
        cases hc
        exact ⟨.file (World.config_pristine.1 hbefore) hd hs, (choose_eq_ok_iff rfl rfl).1 h⟩
    · rintro ⟨hc, h⟩
      cases hc with
      | file hbefore hd hs =>
        have hl := World.load_eq_config_iff.2
          ⟨_, _, hd, hs, hv, World.config_pristine.2 hbefore, rfl⟩
        rw [configure_eq_ok_iff.2 ⟨c, hl, rfl⟩]
        dsimp only
        let w : World := { World.pristine environment with written := some c }
        have hb := (choose_eq_ok_iff (w := w) rfl rfl).2 h
        exact ⟨hb, config_choose hb⟩

end Batch

end CommandLine

end EventSim
