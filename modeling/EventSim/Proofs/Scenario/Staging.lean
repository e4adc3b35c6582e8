import EventSim.Proofs.Restart.Forgetting
import EventSim.Proofs.Scenario.Passing

/-!
# Scenarios on a stage that was used before

The plan of a scenario goes through the facade.  So if the slot is empty and no old handle can be
taken for a new one, it is followed as in a world where nothing was made yet: the replies are the
same but for the numbers of the kernels, and the judgements that are content with the one are
content with the other (`Resumes.follow`).

Six plans are the same for every seed and every number of events.  They are followed to their end in
an unused world, which is an evaluation, and **therefore in every world with an empty slot**
(`Orderly.succeeds`).
-/

namespace EventSim

open Scenario

variable {n : Nat} {stale : List Handle} {r r' : Reply} {replies replies' : List Reply}

/-! ### Judgements -/

/-- No number of a kernel and no handle is in the reply, and it is compared. -/
def Reply.Plain : Reply → Prop
  | .flag _ | .time _ | .count _ | .context _ | .observations _ => True
  | _ => False

theorem Reply.Matches.eq_of_plain (h : r.Matches n stale r') (hr : r.Plain) : r' = r := by
  cases h with
  | same => cases r <;> first | rfl | exact hr.elim
  | expired | report | installed => exact hr.elim

namespace Scenario

/-- If the judgement is content, it still is when the kernels have other numbers. -/
def Steady (judge : List Reply → Option String) : Prop :=
  ∀ {n : Nat} {stale : List Handle} {replies replies' : List Reply},
    List.Forall₂ (Reply.Matches n stale) replies replies' → judge replies = none →
      judge replies' = none

theorem steady_anything : Steady anything := fun _ _ => rfl

theorem steady_accepted : Steady accepted := by
  intro n stale replies replies' h hnone
  cases h with
  | nil => rfl
  | @cons r _ _ _ hr _ =>
    cases hr with
    | same => cases r <;> first | rfl | cases hnone
    | expired => cases hnone
    | report | installed => rfl

/-- A judgement of the newest reply that is content with plain replies alone. -/
theorem steady_of_plain {judge : List Reply → Option String}
    (hnewest : ∀ r rest rest', judge (r :: rest) = judge (r :: rest'))
    (hplain : ∀ r rest, judge (r :: rest) = none → r.Plain) : Steady judge := by
  intro n stale replies replies' h hnone
  cases h with
  | nil => exact hnone
  | cons hr _ =>
    rw [hr.eq_of_plain (hplain _ _ hnone), hnewest]
    exact hnone

theorem steady_isTrue (failure : String) : Steady (isTrue failure) :=
  steady_of_plain (fun r _ _ => by cases r with | flag b => cases b <;> rfl | _ => rfl)
    fun r _ _ => by cases r <;> trivial

theorem steady_isFalse (failure : String) : Steady (isFalse failure) :=
  steady_of_plain (fun r _ _ => by cases r with | flag b => cases b <;> rfl | _ => rfl)
    fun r _ _ => by cases r <;> trivial

theorem steady_isTime (expected : Int) (failure : String → String) :
    Steady (isTime expected failure) :=
  steady_of_plain (fun r _ _ => by cases r <;> rfl)
    fun r _ _ => by cases r <;> trivial

theorem steady_isCount (expected : Nat) (failure : String → String) :
    Steady (isCount expected failure) :=
  steady_of_plain (fun r _ _ => by cases r <;> rfl)
    fun r _ _ => by cases r <;> trivial

theorem steady_sees (expected : List Observation) (failure : String → String) :
    Steady (sees expected failure) :=
  steady_of_plain (fun r _ _ => by cases r <;> rfl)
    fun r _ _ => by cases r <;> trivial

theorem steady_outside : Steady outside :=
  steady_of_plain (fun r _ _ => by cases r <;> rfl)
    fun r _ _ => by cases r <;> trivial

/-- The first identity among replies. -/
theorem findSome?_identity (h : List.Forall₂ (Reply.Matches n stale) replies replies') :
    (replies'.findSome? fun | .identity b => some b | _ => none) =
      (replies.findSome? fun | .identity b => some b | _ => none).map (· + n) := by
  induction h with
  | nil => rfl
  | @cons r r' _ _ hr _ ih =>
    cases hr with
    | same => cases r <;> first | exact ih | rfl
    | expired | report | installed => exact ih

theorem steady_otherIdentity : Steady otherIdentity := by
  intro n stale replies replies' h hnone
  cases h with
  | nil => exact hnone
  | @cons r _ rest rest' hr hrest =>
    cases r with
    | identity a =>
      cases hr
      refine if_neg fun he => ?_
      have hmap := (findSome?_identity hrest).symm.trans he
      obtain ⟨b, hb, hba⟩ := Option.map_eq_some_iff.1 hmap
      obtain rfl : b = a := Nat.add_right_cancel hba
      cases (if_pos hb).symm.trans hnone
    | _ => cases hnone

/-- The outcome that is taken down does not depend on the numbers of kernels. -/
theorem outcome_eq (h : List.Forall₂ (Reply.Matches n stale) replies replies') :
    outcome replies' = outcome replies := by
  unfold outcome
  congr 1
  induction h with
  | nil => rfl
  | @cons r _ _ _ hr _ ih =>
    cases hr with
    | same => cases r <;> first | exact ih | rfl
    | expired | report | installed => exact ih

end Scenario

/-! ### Plans -/

/-- The probe goes through the facade and asks whether an action is stored at most; its judgement
does not mind the numbers of kernels. -/
structure Scenario.Probe.Steady (p : Probe) : Prop where
  command : p.command.All (Command.OnStage True) ∨ ∃ name, p.command = .isStored name
  judge : Scenario.Steady p.judge

namespace World

variable {w v w' : World} {plan : List Probe} {x : Nat × Time}

/-- The plan is followed to its end with that outcome, and a teardown returns then.  Where it asks
whether an action is stored, the handle is one that was issued. -/
def completes (w : World) : List Probe → List Reply → Nat × Time → Bool
  | [], replies, x =>
    outcome replies == x && (match (w.call .teardown).1 with | .ok _ => true | .error _ => false)
  | p :: left, replies, x =>
    (match p.command with
      | .isStored name => w.handle name != .none
      | _ => true) &&
    match w.call p.command with
    | (.ok r, w) => (p.judge (r :: replies)).isNone && w.completes left (r :: replies) x
    | (.error _, _) => false

theorem call_isStored (w : World) (name : HandleName) :
    w.call (.isStored name) =
      (.ok (.flag (((w.handle name).owner.bind fun id =>
        (w.engine? id).map fun e => e.isStored (w.handle name)).getD false)), w) := by
  rw [call_of_not_drives rfl]
  rfl

variable (h : w.Resumes n stale True v) (hh : w.Holds (Action.OnStage True))

include h

/-- An action of an issued handle is stored in both worlds or in neither. -/
theorem Resumes.call_isStored {name : HandleName} (hissued : w.handle name ≠ .none) :
    ∃ b, w.call (.isStored name) = (.ok (.flag b), w) ∧
      v.call (.isStored name) = (.ok (.flag b), v) := by
  refine ⟨_, World.call_isStored w name, ?_⟩
  have hm := h.handle name
  rw [World.call_isStored]
  generalize w.handle name = a at hm hissued
  generalize v.handle name = b at hm
  cases hm with
  | stale => exact absurd rfl hissued
  | issued =>
    simp only [Handle.later]
    cases a.owner with
    | none => rfl
    | some id =>
      simp only [Option.map_some, Option.bind_some, h.engine?]
      cases w.engine? id with
      | none => rfl
      | some e => cases e <;> rfl

include hh

/-- A probe is answered alike, and the one world still resumes the other. -/
theorem Resumes.call_probe {p : Probe} (hp : p.Steady)
    (hknown : ∀ name, p.command = .isStored name → w.handle name ≠ .none)
    (hw : w.call p.command = (.ok r, w')) :
    ∃ r' v', v.call p.command = (.ok r', v') ∧ r.Matches n stale r' ∧
      w'.Resumes n stale True v' ∧ w'.Holds (Action.OnStage True) := by
  rcases hp.command with hc | ⟨name, hc⟩
  · obtain ⟨hscene, hafter, hholds⟩ := h.call hh hc
    have hanswer := hscene.answer
    rw [World.scene, World.scene] at hanswer
    dsimp only at hanswer
    rw [hw] at hafter hholds hanswer
    generalize v.call p.command = y at hafter hanswer
    obtain ⟨y, v'⟩ := y
    cases hanswer with
    | replied hr => exact ⟨_, v', rfl, hr, hafter, hholds⟩
  · obtain ⟨b, hb, hv⟩ := h.call_isStored (hknown name hc)
    rw [hc, hb] at hw
    cases hw
    exact ⟨_, v, hc ▸ hv, .same (.flag b), h, hh⟩

/-- **A plan that is followed to its end in the one world is followed to its end in the other**,
with the same outcome. -/
theorem Resumes.follow (hplan : ∀ p ∈ plan, p.Steady)
    (hr : List.Forall₂ (Reply.Matches n stale) replies replies')
    (hx : w.completes plan replies x = true) :
    ∃ v' u, v.follow plan replies' = (.ok (.ok x), v') ∧ v'.call .teardown = (.ok .done, u) := by
  induction plan generalizing w v replies replies' with
  | nil =>
    rw [completes, Bool.and_eq_true, beq_iff_eq] at hx
    obtain ⟨hx, hteardown⟩ := hx
    have hteardown : ∃ r w', w.call .teardown = (.ok r, w') := by
      generalize w.call .teardown = y at hteardown
      obtain ⟨y, w'⟩ := y
      cases y with
      | error p => cases hteardown
      | ok r => exact ⟨r, w', rfl⟩
    obtain ⟨r, w', hw⟩ := hteardown
    have hlast : Probe.Steady ⟨.teardown, anything⟩ := ⟨.inl (.inl trivial), steady_anything⟩
    obtain ⟨r', u, hv, -⟩ := h.call_probe hh hlast nofun hw
    obtain ⟨-, rfl⟩ := slot_of_call_teardown hv
    exact ⟨v, u, by rw [World.follow, outcome_eq hr, hx], hv⟩
  | cons p plan ih =>
    obtain ⟨hp, hrest⟩ := List.forall_mem_cons.1 hplan
    rw [completes, Bool.and_eq_true] at hx
    obtain ⟨hknown, hx⟩ := hx
    have hknown : ∀ name, p.command = .isStored name → w.handle name ≠ .none := by
      intro name hc
      rw [hc] at hknown
      exact bne_iff_ne.1 hknown
    cases hw : w.call p.command with
    | mk y w' =>
      rw [hw] at hx
      cases y with
      | error e => cases hx
      | ok r =>
        rw [Bool.and_eq_true, Option.isNone_iff_eq_none] at hx
        obtain ⟨r', v', hv, hm, hafter, hholds⟩ := h.call_probe hh hp hknown hw
        obtain ⟨v'', u, hfollow, hteardown⟩ := ih hafter hholds hrest (.cons hm hr) hx.2
        refine ⟨v'', u, ?_, hteardown⟩
        rw [World.follow, hv]
        dsimp only
        rw [hp.judge (.cons hm hr) hx.1]
        exact hfollow

end World

/-! ### Plans that never differ -/

namespace Scenario

theorem Probe.steady_iff {p : Probe} :
    p.Steady ↔ (p.command.All (Command.OnStage True) ∨ ∃ name, p.command = .isStored name) ∧
      Scenario.Steady p.judge :=
  ⟨fun h => ⟨h.command, h.judge⟩, fun h => ⟨h.1, h.2⟩⟩

/-- The plan of the scenario is the same for every seed, scheduler and number of events. -/
def Fixed : ScenarioId → Prop
  | .ordering | .cancel | .stopAt | .destroy | .contextPropagation | .restart => True
  | .fifoTies | .injection | .randomLoad => False

theorem steady_plan {s : ScenarioId} (hs : Fixed s) (seed : UInt64) (scheduler : String)
    (events : Nat) : ∀ p ∈ plan s seed scheduler events, p.Steady := by
  cases s with
  | fifoTies | injection | randomLoad => exact hs.elim
  | _ =>
    simp [plan, ordering, cancel, stopAt, destroy, contextPropagation, restart, Probe.steady_iff,
      scheduled, event, runs, captured, Action.silent, Action.all_iff, Action.body, Action.tag,
      Action.Minds, Command.All, Command.OnStage, Command.OnFacade, Command.Notes,
      steady_anything, steady_accepted, steady_isTrue, steady_isFalse, steady_isTime,
      steady_isCount, steady_sees, steady_outside, steady_otherIdentity]

end Scenario

/-- What a run reports if it passes: how many events were executed, and when the last one was. -/
def ScenarioRun.tally (run : ScenarioRun) : Nat × Time :=
  let kept := Random.keptDelays (Random.workload run.seed run.events)
  match run.scenario with
  | .ordering => (3, ticks 5)
  | .fifoTies => (run.events, ticks 10)
  | .cancel => (1, ticks 10)
  | .stopAt => (3, ticks 3)
  | .destroy => (1, ticks 2)
  | .contextPropagation => (2, ticks 2)
  | .injection => (1, ticks 4)
  | .restart => (1, ticks 2)
  | .randomLoad => (kept.length, ticks (Random.longest kept))

namespace World

variable {w v : World} {run : ScenarioRun} {b : Backend}

/-- A world in which nothing was made yet and that scheduler is chosen. -/
def stageWith (scheduler : String) : World :=
  { pristine none with written := some ⟨Config.builtInKernel, scheduler⟩ }

/-- In an unused world, each of these plans is followed to its end. -/
theorem completes_plan (hs : Fixed run.scenario) (hscheduler : run.scheduler ∈ builtInSchedulers) :
    (stageWith run.scheduler).completes run.plan [] run.tally = true := by
  obtain ⟨s, seed, scheduler, events⟩ := run
  have hall : ∀ scheduler ∈ builtInSchedulers,
      (stageWith scheduler).completes ordering [] (3, ticks 5) = true ∧
      (stageWith scheduler).completes Scenario.cancel [] (1, ticks 10) = true ∧
      (stageWith scheduler).completes stopAt [] (3, ticks 3) = true ∧
      (stageWith scheduler).completes destroy [] (1, ticks 2) = true ∧
      (stageWith scheduler).completes contextPropagation [] (2, ticks 2) = true ∧
      (stageWith scheduler).completes restart [] (1, ticks 2) = true := by
    decide +kernel
  obtain ⟨hordering, hcancel, hstop, hdestroy, hcontext, hrestart⟩ := hall scheduler hscheduler
  cases s with
  | ordering => exact hordering
  | cancel => exact hcancel
  | stopAt => exact hstop
  | destroy => exact hdestroy
  | contextPropagation => exact hcontext
  | restart => exact hrestart
  | fifoTies | injection | randomLoad => exact hs.elim

/-- **Every plan is followed to its end in every world with an empty slot** that is configured for
the built-in kernel and a built-in scheduler, whatever was done in the world before. -/
theorem Orderly.succeeds (h : v.Orderly) (hslot : v.slot = none) (hr : v.registry = .builtIn)
    (hc : v.config = .ok ⟨Config.builtInKernel, run.scheduler⟩) (ho : v.observed = [])
    (hs : run.scheduler ∈ builtInSchedulers) (hn : 0 < run.events) :
    v.Succeeds run.plan run.tally.1 run.tally.2 := by
  obtain ⟨b, hb, hbuilt⟩ := scheduler_builtIn hs
  have hscheduler : v.registry.scheduler run.scheduler = .ok b := hr ▸ hb
  have hkernel : v.registry.kernel Config.builtInKernel = .ok (.builtIn 0) := hr ▸ rfl
  have hvacant : v.Vacant b := ⟨hslot, _, hc, hkernel, hscheduler⟩
  have hfixed (hf : Fixed run.scenario) : v.Succeeds run.plan run.tally.1 run.tally.2 := by
    have hunused : (stageWith run.scheduler).Unused := ⟨rfl, rfl, rfl, rfl⟩
    have hresumes := h.resumes (w := stageWith run.scheduler) hunused hslot hr hc
      (fun _ : True => ho)
    exact hresumes.follow (hunused.holds _)
      (steady_plan hf run.seed run.scheduler run.events) .nil (completes_plan hf hs)
  obtain ⟨s, seed, scheduler, events⟩ := run
  cases s with
  | fifoTies => exact hvacant.succeeds_fifoTies hbuilt ho hn
  | randomLoad =>
    exact hvacant.succeeds_randomLoad hbuilt ho (Random.workload_lt seed _) (by simpa using hn)
  | injection => exact succeeds_injection hslot hc rfl hscheduler hbuilt seed
  | _ => exact hfixed trivial

end World

end EventSim
