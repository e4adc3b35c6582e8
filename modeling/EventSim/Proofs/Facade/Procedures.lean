import EventSim.Proofs.World.Happenings

/-!
# Lifecycle calls, one thing at a time

Building the kernel that the configuration names, handing a kernel over and giving the kernel another
scheduler are sequences of lookups, calls of factories and changes of the facade.  `World.construct`
and its kin say what comes of them.  Here they are written as procedures that do one thing at a
time and note every factory that they call: **what a procedure has done by the time it fails stays
done**, so that nothing is undone by the way a failure is answered.

* `World.resolve_eq`, `World.installFrom_eq`, `World.attachFacade_eq` and `World.attachNamed_eq` show
  that the facade does what the procedures do, and is left as they leave it when they fail.
* `Procedure.Spotless` says that a procedure leaves nothing behind when it fails.  Each of them is
  spotless since it looks everything up before it changes anything.
-/

namespace EventSim

/-- A factory is called: that of a kernel, or that of a scheduler, by the kernel that is to have
it. -/
inductive FactoryCall where
  | kernel (spec : KernelSpec)
  | scheduler (id : KernelId) (b : Backend)

/-- A call under way: the world as it has left it so far, and the factories that it has called, the
latest one first. -/
structure Underway where
  world : World
  called : List FactoryCall

/-- Why a call does not come to its end. -/
inductive Hindrance where
  | panic (p : Panic)
  | refusal (e : SimError)

/-- The panic about a kernel that could not be built. -/
def Hindrance.asPanic : Hindrance → Panic
  | panic p => p
  | refusal e => .construction e

/-- A call that is carried out one thing at a time. -/
abbrev Procedure := EStateM Hindrance Underway

namespace Procedure

variable {α β : Type} {x : Procedure α} {f : α → Procedure β} {u v : Underway} {h : Hindrance}

/-! ### What is done one at a time -/

def readConfig : Procedure Config := fun u =>
  match u.world.config with
  | .ok c => .ok c u
  | .error p => .error (.panic p) u

/-- What a name stands for, if it stands for anything. -/
def find (lookup : Registry → Except SimError α) : Procedure α := fun u =>
  match lookup u.world.registry with
  | .ok a => .ok a u
  | .error e => .error (.refusal e) u

def peek : Procedure (Option KernelId) := fun u => .ok u.world.slot u

/-- Calls the factory of a kernel. -/
def makeKernel (spec : KernelSpec) : Procedure KernelId := fun u =>
  .ok (u.world.make spec).1 ⟨(u.world.make spec).2, .kernel spec :: u.called⟩

/-- Puts a kernel into the slot unless it is taken; the occupant if it is. -/
def publish (id : KernelId) : Procedure (Except KernelId KernelId) := fun u =>
  match u.world.slot with
  | some occupant => .ok (.error occupant) u
  | none => .ok (.ok id) { u with world := { u.world with slot := some id } }

/-- The kernel calls the factory of the scheduler and moves its events. -/
def attachScheduler (id : KernelId) (b : Backend) : Procedure Unit := fun u =>
  .ok () ⟨u.world.attach id b, .scheduler id b :: u.called⟩

def installPrinters : Procedure Unit := fun u =>
  .ok () { u with world := { u.world with printers := .standard } }

/-- Whatever keeps `x` from its end is a panic. -/
def orPanic (x : Procedure α) : Procedure α := fun u =>
  match x.run u with
  | .ok a v => .ok a v
  | .error h v => .error (.panic h.asPanic) v

/-! ### The calls -/

/-- Builds the kernel that the configuration names. -/
def constructing : Procedure KernelId := do
  let c ← readConfig
  let spec ← find (·.kernel c.kernelType)
  let b ← find (·.scheduler c.schedulerType)
  let id ← makeKernel spec
  match ← publish id with
  | .error occupant => return occupant
  | .ok id =>
    attachScheduler id b
    installPrinters
    return id

/-- The kernel in the slot, built if need be; a kernel that cannot be built is a panic. -/
def resolving : Procedure KernelId := do
  match ← peek with
  | some id => return id
  | none => constructing.orPanic

/-- Puts a kernel into the slot; a slot that is taken is a refusal. -/
def claim (id : KernelId) : Procedure KernelId := do
  match ← publish id with
  | .error _ => throw (.refusal .kernelPresent)
  | .ok id => return id

/-- Hands a kernel over. -/
def handing (id : KernelId) : Procedure Unit := do
  let c ← readConfig
  let b ← find (·.scheduler c.schedulerType)
  let id ← claim id
  attachScheduler id b
  installPrinters

/-- Gives the kernel another scheduler. -/
def attaching (b : Backend) : Procedure Unit := do
  let id ← resolving
  attachScheduler id b

/-- Gives the kernel the scheduler of a name. -/
def choosing (name : String) : Procedure Unit := do
  let b ← find (·.scheduler name)
  attaching b

/-! ### Runs -/

theorem run_bind (x : Procedure α) (f : α → Procedure β) (u : Underway) :
    (x >>= f).run u =
      match x.run u with
      | .ok a v => (f a).run v
      | .error h v => .error h v := by
  show EStateM.bind x f u = _
  unfold EStateM.bind EStateM.run
  cases x u <;> rfl

theorem run_orPanic (x : Procedure α) (u : Underway) :
    x.orPanic.run u =
      match x.run u with
      | .ok a v => .ok a v
      | .error h v => .error (.panic h.asPanic) v := rfl

theorem run_readConfig (u : Underway) :
    readConfig.run u =
      match u.world.config with
      | .ok c => .ok c u
      | .error p => .error (.panic p) u := rfl

theorem run_find (lookup : Registry → Except SimError α) (u : Underway) :
    (find lookup).run u =
      match lookup u.world.registry with
      | .ok a => .ok a u
      | .error e => .error (.refusal e) u := rfl

theorem run_peek (u : Underway) : peek.run u = .ok u.world.slot u := rfl

theorem run_publish (id : KernelId) (u : Underway) :
    (publish id).run u =
      match u.world.slot with
      | some occupant => .ok (.error occupant) u
      | none => .ok (.ok id) { u with world := { u.world with slot := some id } } := rfl

theorem run_claim (id : KernelId) (u : Underway) :
    (claim id).run u =
      match u.world.slot with
      | some _ => .error (.refusal .kernelPresent) u
      | none => .ok id { u with world := { u.world with slot := some id } } := by
  unfold claim
  rw [run_bind, run_publish]
  cases u.world.slot <;> rfl

/-! ### Procedures that leave nothing behind -/

/-- It changes nothing, whether it fails or not. -/
def Looks (x : Procedure α) : Prop := ∀ u, (∃ a, x.run u = .ok a u) ∨ ∃ h, x.run u = .error h u

/-- It does not fail. -/
def Sure (x : Procedure α) : Prop := ∀ u, ∃ a v, x.run u = .ok a v

/-- If it fails, it leaves nothing behind and has called no factory. -/
def Spotless (x : Procedure α) : Prop := ∀ u h v, x.run u = .error h v → v = u

theorem Sure.ne_error (hx : Sure x) : x.run u ≠ .error h v := by
  obtain ⟨a, u', hu⟩ := hx u
  rw [hu]
  exact fun h => by cases h

theorem Sure.spotless (hx : Sure x) : Spotless x := fun _ _ _ hf => absurd hf hx.ne_error

theorem Sure.bind (hx : Sure x) (hf : ∀ a, Sure (f a)) : Sure (x >>= f) := by
  intro u
  obtain ⟨a, v, hv⟩ := hx u
  rw [run_bind, hv]
  exact hf a v

/-- First look, then go on. -/
theorem Looks.bind_spotless (hx : Looks x) (hf : ∀ a, Spotless (f a)) : Spotless (x >>= f) := by
  intro u h v hv
  rw [run_bind] at hv
  rcases hx u with ⟨a, ha⟩ | ⟨g, hg⟩
  · rw [ha] at hv
    exact hf a u h v hv
  · rw [hg] at hv
    cases hv
    rfl

/-- Nothing may fail after something has been changed. -/
theorem Spotless.bind_sure (hx : Spotless x) (hf : ∀ a, Sure (f a)) : Spotless (x >>= f) := by
  intro u h v hv
  rw [run_bind] at hv
  split at hv
  · exact absurd hv (hf _).ne_error
  · cases hv
    exact hx u _ _ ‹_›

theorem Spotless.orPanic (hx : Spotless x) : Spotless x.orPanic := by
  intro u h v hv
  rw [run_orPanic] at hv
  split at hv
  · cases hv
  · cases hv
    exact hx u _ _ ‹_›

theorem looks_readConfig : Looks readConfig := by
  intro u
  rw [run_readConfig]
  split
  · exact .inl ⟨_, rfl⟩
  · exact .inr ⟨_, rfl⟩

theorem looks_find (lookup : Registry → Except SimError α) : Looks (find lookup) := by
  intro u
  rw [run_find]
  split
  · exact .inl ⟨_, rfl⟩
  · exact .inr ⟨_, rfl⟩

theorem looks_peek : Looks peek := fun _ => .inl ⟨_, rfl⟩

theorem sure_publish (id : KernelId) : Sure (publish id) := by
  intro u
  rw [run_publish]
  split
  · exact ⟨_, _, rfl⟩
  · exact ⟨_, _, rfl⟩

/-- A slot that is taken is left as it is. -/
theorem spotless_claim (id : KernelId) : Spotless (claim id) := by
  intro u h v hv
  rw [run_claim] at hv
  split at hv
  · cases hv
    rfl
  · cases hv

/-- Both names are looked up before the factory of the kernel is called, and nothing after that can
fail. -/
theorem spotless_constructing : Spotless constructing := by
  refine looks_readConfig.bind_spotless fun c => ?_
  refine (looks_find _).bind_spotless fun spec => ?_
  refine (looks_find _).bind_spotless fun b => Sure.spotless ?_
  refine Sure.bind (fun _ => ⟨_, _, rfl⟩) fun id => ?_
  refine (sure_publish id).bind fun x => ?_
  cases x with
  | error occupant => exact fun _ => ⟨_, _, rfl⟩
  | ok id => exact fun _ => ⟨_, _, rfl⟩

theorem spotless_resolving : Spotless resolving := by
  refine looks_peek.bind_spotless fun x => ?_
  cases x with
  | none => exact spotless_constructing.orPanic
  | some id => exact Sure.spotless fun _ => ⟨_, _, rfl⟩

/-- The slot is claimed before the scheduler is attached. -/
theorem spotless_handing (id : KernelId) : Spotless (handing id) := by
  refine looks_readConfig.bind_spotless fun c => ?_
  refine (looks_find _).bind_spotless fun b => ?_
  exact (spotless_claim id).bind_sure fun id _ => ⟨_, _, rfl⟩

theorem spotless_attaching (b : Backend) : Spotless (attaching b) :=
  spotless_resolving.bind_sure fun _ _ => ⟨_, _, rfl⟩

theorem spotless_choosing (name : String) : Spotless (choosing name) :=
  (looks_find _).bind_spotless fun b => spotless_attaching b

/-- Not getting hold of a kernel is a panic. -/
theorem panic_of_resolving (hv : resolving.run u = .error h v) : ∃ p, h = .panic p := by
  unfold resolving at hv
  rw [run_bind, run_peek] at hv
  dsimp only at hv
  split at hv
  · cases hv
  · rw [run_orPanic] at hv
    split at hv
    · cases hv
    · cases hv
      exact ⟨_, rfl⟩

theorem panic_of_attaching {b : Backend} (hv : (attaching b).run u = .error h v) :
    ∃ p, h = .panic p := by
  unfold attaching at hv
  rw [run_bind] at hv
  split at hv
  · cases hv
  · cases hv
    exact panic_of_resolving ‹_›

end Procedure

/-! ### What the facade does -/

namespace World

open Procedure

/-- The answer to a call that has come to its end or not, and the world that it leaves. -/
def answered : EStateM.Result Hindrance Underway Unit → Except Panic Reply × World
  | .ok () u => (.ok .done, u.world)
  | .error (.panic p) u => (.error p, u.world)
  | .error (.refusal e) u => (.ok (.refused e), u.world)

/-- The kernel that is handed over, new or known by a name, and the world with it. -/
def offer (w : World) : KernelSource → Except Panic (KernelId × World)
  | .held name =>
    match w.lookup name with
    | .error p => .error p
    | .ok id => .ok (id, w)
  | .fresh spec => .ok (w.make spec)

variable {w v : World} {id : KernelId} {source : KernelSource}

/-- The facade gets hold of its kernel as `resolving` does. -/
theorem resolve_eq (w : World) (l : List FactoryCall) :
    w.resolve =
      match resolving.run ⟨w, l⟩ with
      | .ok id u => .ok (id, u.world)
      | .error h _ => .error h.asPanic := by
  unfold resolve resolving construct constructing
  rw [run_bind, run_peek]
  dsimp only
  cases hs : w.slot with
  | some id => rfl
  | none =>
    dsimp only
    rw [run_orPanic, run_bind, run_readConfig]
    dsimp only
    cases w.config with
    | error p => rfl
    | ok c =>
      dsimp only
      rw [run_bind, run_find]
      dsimp only
      cases w.registry.kernel c.kernelType with
      | error e => rfl
      | ok spec =>
        dsimp only
        rw [run_bind, run_find]
        dsimp only
        cases w.registry.scheduler c.schedulerType with
        | error e => rfl
        | ok b =>
          have hslot : (w.make spec).2.slot = none := by rw [slot_make, hs]
          have hmake : (makeKernel spec).run ⟨w, l⟩ =
              .ok (w.make spec).1 ⟨(w.make spec).2, .kernel spec :: l⟩ := rfl
          dsimp only
          rw [run_bind, hmake]
          dsimp only
          rw [run_bind, run_publish, hslot]
          rfl

theorem answered_handing (w : World) (id : KernelId) (l : List FactoryCall) :
    answered ((handing id).run ⟨w, l⟩) =
      match w.install id with
      | .error p => (.error p, w)
      | .ok (.error e) => (.ok (.refused e), w)
      | .ok (.ok w) => (.ok .done, w) := by
  unfold install handing
  rw [run_bind, run_readConfig]
  dsimp only
  cases w.config with
  | error p => rfl
  | ok c =>
    dsimp only
    rw [run_bind, run_find]
    dsimp only
    cases w.registry.scheduler c.schedulerType with
    | error e => rfl
    | ok b =>
      dsimp only
      rw [run_bind, run_claim]
      dsimp only
      cases w.slot <;> rfl

/-- Handing a kernel over does what `handing` does. -/
theorem installFrom_eq (h : w.offer source = .ok (id, v)) (l : List FactoryCall) :
    w.installFrom source = answered ((handing id).run ⟨v, l⟩) := by
  rw [answered_handing]
  cases source with
  | held name =>
    unfold offer at h
    unfold installFrom
    dsimp only at h ⊢
    cases hlookup : w.lookup name with
    | error p =>
      rw [hlookup] at h
      cases h
    | ok found =>
      rw [hlookup] at h
      cases h
      rfl
  | fresh spec =>
    cases h
    rfl

/-- Giving the kernel of the facade another scheduler does what `attaching` does. -/
theorem attachFacade_eq (w : World) (b : Backend) (l : List FactoryCall) :
    w.perform (.attach .facade b) = answered ((attaching b).run ⟨w, l⟩) := by
  unfold perform attaching onReached reach
  rw [run_bind, resolve_eq w l]
  cases hr : resolving.run ⟨w, l⟩ with
  | error h u =>
    obtain ⟨p, rfl⟩ := panic_of_resolving hr
    cases spotless_resolving _ _ _ hr
    rfl
  | ok id u =>
    show _ = (Except.ok Reply.done, u.world.attach id b)
    dsimp only
    cases he : u.world.engine? id with
    | none => rw [attach, he]
    | some e => rfl

/-- Choosing a scheduler does what `choosing` does. -/
theorem attachNamed_eq (w : World) (name : String) (l : List FactoryCall) :
    w.perform (.attachNamed name) = answered ((choosing name).run ⟨w, l⟩) := by
  unfold choosing
  rw [run_bind, run_find, perform]
  dsimp only
  cases w.registry.scheduler name with
  | error e => rfl
  | ok b => exact w.attachFacade_eq b l

end World

end EventSim
