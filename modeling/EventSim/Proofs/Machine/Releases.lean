import EventSim.Proofs.Machine.Stacks
import EventSim.Proofs.World.Releases

/-!
# What becomes of actions in a session

`Machine.releases_make` says of every move of a session, lawful or not: **the journal tells of just
the actions that the notes of the move and its refused scheduling calls give up.**  With what is
known of the actions that start, the notes of a move can be trusted (`Machine.Honest`).
-/

namespace EventSim

namespace Machine

open World (Releases)

variable {m : Machine} {w : World} {stack rest : List Frame}
  {result : Option (Except Panic Reply)} {id : KernelId} {x : Move}

/-- The actions that a move gives up. -/
def discards (m : Machine) (x : Move) : List Action :=
  World.discardedIn (m.notes x) ++ (m.requests x).flatMap Request.refused

/-! ### Ends and starts of calls -/

theorem releases_panic (p : Panic) : w.Releases [] (panic ⟨w, stack, result⟩ p).world := .refl w

theorem releases_deliver (r : Reply) : w.Releases [] (deliver ⟨w, stack, result⟩ r).world := by
  unfold deliver
  dsimp only
  split
  · exact .refl w
  · split
    · exact .of_log rfl
    · exact .refl w
  · split <;> exact .refl w
  · exact .refl w

theorem releases_startAction (a : Action) :
    w.Releases [] (startAction ⟨w, stack, result⟩ a).world := by
  unfold startAction
  dsimp only
  split
  · exact .refl w
  · split
    · exact releases_panic _
    · rename_i hn
      refine (World.releases_nowOf hn).trans ?_
      split
      · exact releases_panic _
      · rename_i hc
        exact (World.releases_contextOf hc).trans (.of_log rfl)

theorem releases_beginRun (id : KernelId) :
    w.Releases [] (beginRun ⟨w, stack, result⟩ id).world := by
  unfold beginRun
  split
  · exact .of_journal rfl
  · exact releases_deliver _

theorem releases_beginDestroy (id : KernelId) :
    w.Releases [] (beginDestroy ⟨w, stack, result⟩ id).world := by
  unfold beginDestroy
  split
  · dsimp only
    split
    · exact Releases.of_log (e := .watched ..) rfl
    · exact .refl w
  · exact releases_deliver _

theorem releases_beginTeardown : w.Releases [] (beginTeardown ⟨w, stack, result⟩).world := by
  unfold beginTeardown
  split
  · exact releases_deliver _
  · exact releases_beginDestroy (w := { w with printers := .none }) _

theorem releases_start (c : Command) :
    w.Releases (w.discards c) (start ⟨w, stack, result⟩ c).world := by
  unfold start
  split
  · split
    · exact releases_panic _
    · rename_i hr
      exact (World.releases_reach hr).trans (releases_beginRun _)
  · split
    · exact releases_panic _
    · rename_i hr
      exact (World.releases_reach hr).trans (releases_beginDestroy _)
  · exact releases_beginTeardown
  · split
    · exact releases_deliver _
    · exact releases_beginTeardown
  · have h := World.releases_perform w c
    split
    · rename_i hp
      rw [hp] at h
      exact h.quietly (releases_panic _)
    · rename_i hp
      rw [hp] at h
      exact h.quietly (releases_deliver _)

/-! ### Turns -/

/-- The actions that a deed of the machine gives up. -/
def turnDiscards (m : Machine) : List Action :=
  World.discardedIn ((m.turn? .step).elim [] fun p => m.world.noted p.1 p.2)

/-- An event that comes out and does not start gives its action up. -/
theorem discarded_popped {k : Kernel Action} {e : Event (Payload Action)}
    {rest : Scheduler (Payload Action)} (hp : k.scheduler.pop = some (e, rest))
    (payload : Payload Action) :
    (k.note? (.skipped payload)).toList.flatMap Note.discarded = e.payload.action?.toList := by
  rw [Kernel.note?, hp]
  cases ha : e.payload <;> simp [Note.discarded, Note.givenUp, Event.item, ha] <;> rfl

theorem turnDiscards_of_turn {watched : Bool} {k : Kernel Action} {d : Deed Action}
    (ht : m.turn? .step = some (id, d)) (hk : m.world.engine? id = some (.builtIn watched k)) :
    turnDiscards m = (k.note? d).toList.flatMap Note.discarded := by
  rw [turnDiscards, ht]
  exact World.discardedIn_noted (World.kernel?_eq_some.2 ⟨watched, hk⟩)

theorem actions_storedItems (k : Kernel Action) :
    (k.storedItems.filterMap fun i => i.payload.action?) =
      k.scheduler.toList.filterMap fun e => e.payload.action? := by
  rw [Kernel.storedItems, List.filterMap_map]
  rfl

theorem actions_items (k : Kernel Action) :
    (k.items.filterMap fun i => i.payload.action?) = k.held := by
  rw [Kernel.items, List.filterMap_append, actions_storedItems, Kernel.held, Kernel.teardownItems,
    List.filterMap_map]
  show _ = _ ++ k.teardowns.map TeardownEvent.action
  rw [← List.filterMap_eq_map]
  rfl

theorem releases_stepRun :
    w.Releases (turnDiscards ⟨w, .running id :: rest, result⟩)
      (stepRun ⟨w, stack, result⟩ id rest).world := by
  have hset (e : Engine Action) : w.Releases [] (w.setEngine id e) := .of_journal rfl
  have ht := runTurn_stepRun w id stack rest result
  generalize stepRun ⟨w, stack, result⟩ id rest = n at ht ⊢
  cases ht with
  | absent hne =>
    rw [turnDiscards, turn?_running_of_none (World.kernel?_eq_none hne)]
    exact releases_deliver _
  | ended he hq =>
    rw [turnDiscards_of_turn (turn?_running he) he, hq]
    exact (hset _).trans (releases_deliver _)
  | skipped he hq =>
    obtain ⟨e, rest', hp, rfl, -, -⟩ := Kernel.dequeue_eq_skipped hq
    rw [turnDiscards_of_turn (turn?_running he) he, hq, Dequeued.deed, discarded_popped hp]
    exact (hset _).trans (World.releases_releaseAll _ _)
  | @strayed watched k k' payload he hq =>
    obtain ⟨e, rest', hp, rfl, -, -⟩ := Kernel.dequeue_eq_past hq
    have hn : (k.note? (.strayed e.payload)).toList.flatMap Note.discarded =
        e.payload.action?.toList := discarded_popped hp e.payload
    rw [turnDiscards_of_turn (turn?_running he) he, hq, Dequeued.deed, hn]
    exact (hset _).trans (World.releases_releaseAll _ _)
  | halted he hq =>
    rw [turnDiscards_of_turn (turn?_running he) he, hq]
    exact hset _
  | launched he hq =>
    rw [turnDiscards_of_turn (turn?_running he) he, hq]
    exact (hset _).trans (releases_startAction _)

theorem releases_stepDestroy :
    w.Releases (turnDiscards ⟨w, .destroying id :: rest, result⟩)
      (stepDestroy ⟨w, stack, result⟩ id rest).world := by
  have hset (e : Engine Action) : w.Releases [] (w.setEngine id e) := .of_journal rfl
  have ht := destroyTurn_stepDestroy w id stack rest result
  generalize stepDestroy ⟨w, stack, result⟩ id rest = n at ht ⊢
  cases ht with
  | absent hne =>
    rw [turnDiscards, turn?_destroying_of_none (World.kernel?_eq_none hne)]
    exact releases_deliver _
  | unwound he hq =>
    rw [turnDiscards_of_turn (turn?_destroying he) he, Kernel.unwinding, hq]
    exact (hset _).trans (releases_startAction _)
  | @swept watched k he hq =>
    have hn : (k.note? .swept).toList.flatMap Note.discarded = k.sweep.1 :=
      (List.flatMap_singleton ..).trans (actions_storedItems k)
    rw [turnDiscards_of_turn (turn?_destroying he) he, Kernel.unwinding, hq]
    dsimp only
    rw [hn]
    exact ((hset _).trans (World.releases_releaseAll _ _)).quietly (releases_deliver _)

theorem releases_abandon (w : World) (id : KernelId) :
    w.Releases (World.discardedIn (if w.isNamed id then [] else w.noted id .vanished))
      (w.abandon id) := by
  unfold World.abandon
  split
  · exact .refl w
  · split
    · rename_i hnone
      have hk : w.kernel? id = none := by rw [World.kernel?, hnone]
      rw [World.noted, hk]
      exact .refl w
    · rename_i e he
      cases e with
      | builtIn watched k =>
        have hn : (k.note? .vanished).toList.flatMap Note.discarded = k.held :=
          (List.flatMap_singleton ..).trans (actions_items k)
        rw [World.discardedIn_noted (World.kernel?_eq_some.2 ⟨watched, he⟩), hn]
        exact (World.releases_releaseAll w _).quietly (.of_journal rfl)
      | fixed k =>
        have hk : w.kernel? id = none := by rw [World.kernel?, he]
        rw [World.noted, hk]
        exact .of_journal rfl

theorem releases_stepClear {found : KernelId} :
    w.Releases (turnDiscards ⟨w, .clearing found :: rest, result⟩)
      (stepClear ⟨w, stack, result⟩ rest).world := by
  unfold stepClear turnDiscards
  dsimp only [turn?]
  cases hs : w.slot with
  | none => exact releases_deliver _
  | some id =>
    let v : World := { w with slot := none }
    have h : v.Releases _ (deliver ⟨v.abandon id, rest, result⟩ .done).world :=
      (releases_abandon v id).quietly (releases_deliver .done)
    dsimp only [Option.bind_some]
    by_cases hn : w.isNamed id = true
    · rw [if_pos hn]
      rwa [if_pos (show ({ w with slot := none } : World).isNamed id = true from hn)] at h
    · rw [if_neg hn]
      rwa [if_neg (show ¬ ({ w with slot := none } : World).isNamed id = true from hn)] at h

/-! ### Moves -/

theorem releases_stepScenario_of_aside {run : ScenarioRun} {stage : ScenarioStage}
    (hp : ∀ saved probe left replies, stage ≠ .probing saved (probe :: left) replies) :
    w.Releases [] (stepScenario ⟨w, .scenario run stage :: rest, result⟩ run stage rest).world := by
  unfold stepScenario
  split
  · unfold stepOpened
    split
    · exact releases_panic _
    · have h := World.releases_chooseScheduler w run.scheduler
      split
      · rename_i hc
        rw [hc] at h
        exact h.trans (releases_panic _)
      · rename_i hc
        rwa [hc] at h
      · rename_i hc
        rw [hc] at h
        exact h.trans (.of_journal rfl)
  · exact .refl w
  · exact absurd rfl (hp _ _ _ _)
  · exact .refl w
  · exact releases_beginTeardown
  · rename_i saved verdict
    unfold stepRestore
    have h := World.releases_apply w saved
    split
    · rename_i hc
      rw [hc] at h
      exact h.trans (releases_panic _)
    · rename_i v hc
      rw [hc] at h
      exact h.trans (releases_deliver (w := v.forgetInjected) _)

theorem releases_step : m.world.Releases (m.discards .step) m.step.world := by
  obtain ⟨w, stack, result⟩ := m
  cases stack with
  | nil => exact .refl w
  | cons f rest =>
    have hturn (ho : onset? ⟨w, f :: rest, result⟩ .step = none) :
        discards ⟨w, f :: rest, result⟩ .step = turnDiscards ⟨w, f :: rest, result⟩ := by
      rw [discards, notes, requests, ho]
      exact List.append_nil _
    cases f with
    | body reporting left =>
      cases left with
      | nil => exact .refl w
      | cons c left =>
        rw [discards, notes, requests]
        simp only [onset?, turn?, Option.elim_some, Option.elim_none, List.append_nil, step]
        generalize hv : (if (reporting && c.settles) = true then w.log (.began c.name) else w) = v
        have hw : w.Releases [] v := by
          rw [← hv]
          split
          · exact .of_log rfl
          · exact .refl w
        exact hw.trans (releases_start c)
    | answering => exact .refl w
    | running id => exact hturn rfl ▸ releases_stepRun
    | destroying id => exact hturn rfl ▸ releases_stepDestroy
    | clearing found => exact hturn rfl ▸ releases_stepClear
    | scenario run stage =>
      cases stage with
      | probing saved left replies =>
        cases left with
        | nil => exact .refl w
        | cons probe left =>
          rw [discards, notes, requests]
          simp only [onset?, turn?, Option.elim_some, Option.elim_none, List.append_nil]
          exact releases_start probe.command
      | _ => exact releases_stepScenario_of_aside fun _ _ _ _ h => by cases h

/-- The end of a destruction is noted. -/
theorem notes_of_destroyed {k : Kernel Action} (hs : m.stack = .destroying id :: rest)
    (hk : m.step.world.kernel? id = some k) (hlen : m.step.stack.length ≤ rest.length)
    (hp : ¬ m.step.Panicked) : ∃ lost, m.notes .step = [(id, .swept lost)] := by
  obtain ⟨w, stack, result⟩ := m
  obtain rfl : stack = .destroying id :: rest := hs
  have ht := destroyTurn_stepDestroy w id (.destroying id :: rest) rest result
  generalize hstep : stepDestroy ⟨w, .destroying id :: rest, result⟩ id rest = n at ht
  have hstep : step ⟨w, .destroying id :: rest, result⟩ = n := hstep
  rw [hstep] at hk hlen hp
  cases ht with
  | absent hne =>
    rw [World.kernel?_congr (aside_deliver _).engines id, World.kernel?_eq_none hne] at hk
    cases hk
  | @unwound watched k₀ k' e =>
    rcases stack_startAction (w.setEngine id (.builtIn watched k')) (.destroying id :: rest) result
      e.action with hst | hst
    · rw [hst] at hlen
      simp only [List.length_cons] at hlen
      omega
    · exact (hp hst).elim
  | @swept watched k₀ he hq =>
    refine ⟨k₀.storedItems, ?_⟩
    rw [notes, turn?_destroying he, Kernel.unwinding, hq]
    simp [onset?, noted_of_engine he, Kernel.note?]

/-- **The journal tells of just the actions that a move gives up.** -/
theorem releases_make (m : Machine) (x : Move) :
    m.world.Releases (m.discards x) (m.make x).world := by
  cases x with
  | call c =>
    rw [discards, notes, requests]
    simp only [onset?, turn?, Option.elim_some, Option.elim_none, List.append_nil]
    exact releases_start c
  | step => exact releases_step
  | unwind frames => exact .refl m.world

/-- What is noted of a move is what becomes of the actions in it. -/
structure Honest (m : Machine) (x : Move) : Prop where
  /-- The actions that are noted to start do so. -/
  launched : ∀ a ∈ m.launches x, ∃ w, m.make x = startAction ⟨w, m.stack, m.result⟩ a
  /-- No other action is carried out. -/
  executing : (m.make x).executing ≤ m.executing + (m.launches x).length
  /-- The actions that are given up are told in the journal, and no others. -/
  released : m.world.Releases (m.discards x) (m.make x).world

theorem Allows.honest {p : Command → Prop} (hx : m.Allows p x) : m.Honest x :=
  ⟨fun _ => hx.make_of_mem_launches, hx.executing_make, releases_make m x⟩

end Machine

end EventSim
