import EventSim.Proofs.Machine.Calls
import EventSim.Proofs.Refusals.Chapters
import EventSim.Proofs.Refusals.Replies

/-!
# Calls without refused calls

A call from outside that is not refused is the same call in a world without refused calls, up to its
end (`Purges.call`).  The two run in lockstep, and in a step in which a call inside of an action is
refused only one of them moves.  A call from outside that is refused leaves nothing behind
(`Purges.call_refused`).
-/

namespace EventSim

namespace Machine

variable {T : Replies} {events : List (KernelId × Nat)} {b c : List Entry} {m n : Machine}
  {w : World} {s rest : List Frame} {result : Option (Except Panic Reply)} {x : Command}

/-! ### How calls end that run actions -/

/-- If the outermost call has ended, it was not refused. -/
def Unrefused (m : Machine) : Prop := ∀ e, m.result ≠ some (.ok (.refused e))

theorem unrefused_panic (p : Panic) : (panic ⟨w, s, result⟩ p).Unrefused :=
  fun e he => by cases he

theorem unrefused_done (h : ∀ e, result ≠ some (.ok (.refused e))) :
    (deliver ⟨w, s, result⟩ .done).Unrefused := by
  by_cases hs : s = []
  · subst hs
    exact fun e he => by cases he
  · intro e
    rw [result_deliver hs]
    exact h e

theorem unrefused_startAction (h : ∀ e, result ≠ some (.ok (.refused e))) (a : Action) :
    (startAction ⟨w, s, result⟩ a).Unrefused := by
  unfold startAction
  dsimp only
  split
  · exact h
  · split
    · exact unrefused_panic _
    · split
      · exact unrefused_panic _
      · exact h

/-- A call ends without being refused, unless it comes from outside and runs nothing. -/
theorem unrefused_start (h : ∀ e, result ≠ some (.ok (.refused e))) (hx : x.OnKernel)
    (hs : x.drives = false → s ≠ []) : (start ⟨w, s, result⟩ x).Unrefused := by
  cases hd : x.drives with
  | false =>
    rw [start_of_not_drives hd]
    split
    · exact unrefused_panic _
    · intro e
      rw [result_deliver (hs hd)]
      exact h e
  | true =>
    cases x with
    | run t =>
      unfold start
      dsimp only
      split
      · exact unrefused_panic _
      · unfold beginRun
        split
        · exact h
        · exact unrefused_done h
    | destroy t =>
      unfold start
      dsimp only
      split
      · exact unrefused_panic _
      · unfold beginDestroy
        split
        · exact h
        · exact unrefused_done h
    | teardown | scenario => exact hx.elim
    | _ => cases hd

theorem unrefused_step (h : m.Unrefused) (hs : ∀ f ∈ m.stack, f.OnKernel) : m.step.Unrefused := by
  obtain ⟨w, stack, result⟩ := m
  rcases stack with _ | ⟨f, rest⟩
  · exact h
  · have hf := (List.forall_mem_cons.1 hs).1
    cases f with
    | body reporting left =>
      rcases left with _ | ⟨x, left⟩
      · exact h
      · exact unrefused_start h (List.forall_mem_cons.1 hf).1.self fun _ => nofun
    | running id =>
      have ht := runTurn_stepRun w id (.running id :: rest) rest result
      show (stepRun _ id rest).Unrefused
      generalize stepRun ⟨w, .running id :: rest, result⟩ id rest = n at ht ⊢
      cases ht with
      | absent | ended => exact unrefused_done h
      | skipped | halted => exact h
      | strayed => exact unrefused_panic _
      | launched => exact unrefused_startAction h _
    | destroying id =>
      have ht := destroyTurn_stepDestroy w id (.destroying id :: rest) rest result
      show (stepDestroy _ id rest).Unrefused
      generalize stepDestroy ⟨w, .destroying id :: rest, result⟩ id rest = n at ht ⊢
      cases ht with
      | absent | swept => exact unrefused_done h
      | unwound => exact unrefused_startAction h _
    | answering => exact h
    | clearing | scenario => exact hf.elim

/-! ### Whole calls -/

theorem story_of_stack (h : m.stack = []) (i : Nat) : m.story i events = [] := by
  cases i <;> simp [story, h]

theorem unrefused_steps (h : m.Unrefused) (ho : m.OnKernel) (i : Nat) :
    (m.steps i).Unrefused := by
  let I (m' : Machine) : Prop := m'.Unrefused ∧ m'.OnKernel
  have hstep {m' : Machine} (hm : I m') : I m'.step :=
    ⟨unrefused_step hm.1 hm.2.waiting, hm.2.step⟩
  exact (keeps_steps I hstep ⟨h, ho⟩ i).1

/-- **The calls go on alike to their ends**, if there are steps enough for both. -/
theorem Purges.steps {i j : Nat} (h : Purges T events b c m n) (ho : m.OnKernel)
    (hT : m.Heeded T i events) (hi : m.weight ≤ i) (hj : n.weight ≤ j) :
    n.story j events = (m.story i events).filterMap (Chapter.purged T) ∧
      (n.steps j).result = (m.steps i).result ∧
      ∃ b' c', (m.steps i).world.Purges T b' c' (n.steps j).world := by
  induction i generalizing m n b c j events with
  | zero =>
    have hm : m.stack = [] := stack_of_weight (Nat.le_zero.1 hi)
    rw [story_of_stack hm, story_of_stack (h.stack_iff.2 hm), steps_of_stack hm,
      steps_of_stack (h.stack_iff.2 hm)]
    exact ⟨rfl, h.result_eq, b, c, h.world⟩
  | succ i ih =>
    by_cases hm : m.stack = []
    · rw [story_of_stack hm, story_of_stack (h.stack_iff.2 hm), steps_of_stack hm,
        steps_of_stack (h.stack_iff.2 hm)]
      exact ⟨rfl, h.result_eq, b, c, h.world⟩
    · have hlt := weight_step hm
      have hempty : ¬ m.stack.isEmpty = true := fun he => hm (List.isEmpty_iff.1 he)
      obtain ⟨hheeds, hrest⟩ := hT.resolve_left hempty
      rw [story, Machine.steps, if_neg hempty, if_neg hempty]
      by_cases hr : m.Refuses
      · -- The second machine waits until the refused call is over.
        obtain ⟨hevents, hstep⟩ := h.step_refused ho hheeds hr
        rw [hevents] at hrest ⊢
        rw [List.filterMap_cons_none (hr.purged_chapter ho)]
        exact ih hstep ho.step hrest (by omega) hj
      · have hn : n.stack ≠ [] := fun hn => hm (h.stack_iff.1 hn)
        have hlt' := weight_step hn
        obtain ⟨j, rfl⟩ : ∃ j', j = j' + 1 := ⟨j - 1, by omega⟩
        have hempty' : ¬ n.stack.isEmpty = true := fun he => hn (List.isEmpty_iff.1 he)
        rw [story, Machine.steps, if_neg hempty', if_neg hempty',
          List.filterMap_cons_some (h.chapter hm ho hheeds hr), h.events_eq ho hheeds hr]
        obtain ⟨hstory, hafter⟩ :=
          ih (j := j) (h.step hm ho hheeds hr) ho.step hrest (by omega) (by omega)
        exact ⟨congrArg _ hstory, hafter⟩

end Machine

namespace World

variable {T : Replies} {b c : List Entry} {w v : World} {x : Command} {rest : List Command}
  {reply : Option Reply}

theorem Purges.ofCall (h : w.Purges T b c v) (hx : x.All Command.OnKernel)
    (hr : x.drives = false → ∀ e, (w.perform x).1 ≠ .ok (.refused e))
    (hreply : x.drives = false → reply = (w.perform x).1.toOption) :
    Machine.Purges T [] b c (Machine.ofCall w x) (Machine.ofCall v (x.purged T reply)) :=
  Machine.Purges.start (s := []) h hx.self hr hreply

theorem reply_of_not_drives (hd : x.drives = false) : (w.call x).1 = (w.perform x).1 := by
  rw [call_of_not_drives hd]
  split
  · rename_i hp
    rw [hp]
  · rename_i hp
    rw [hp]

theorem unrefused_ofCall (hx : x.OnKernel)
    (hr : x.drives = false → ∀ e, (w.perform x).1 ≠ .ok (.refused e)) :
    (Machine.ofCall w x).Unrefused := by
  cases hd : x.drives with
  | true =>
    refine Machine.unrefused_start (fun e he => by cases he) hx fun hf => ?_
    rw [hd] at hf
    cases hf
  | false =>
    have hr := hr hd
    rw [Machine.ofCall, Machine.start_of_not_drives hd]
    split
    · exact Machine.unrefused_panic _
    · rename_i r v hp
      intro e he
      rw [hp] at hr
      exact hr e (Option.some.inj he)

/-- Only a call that runs no actions is refused. -/
theorem not_drives_of_refused (hw : w.Holds Action.OnKernel) (hx : x.All Command.OnKernel)
    {e : SimError} (hr : (w.call x).1 = .ok (.refused e)) : x.drives = false := by
  by_contra hd
  have hu := Machine.unrefused_steps (unrefused_ofCall hx.self fun hf => (hd hf).elim)
    (Machine.onKernel_ofCall hw hx) (Machine.ofCall w x).weight
  have hend : (Machine.ofCall w x).run.result.getD (.ok .done) = .ok (.refused e) := hr
  cases hrun : (Machine.ofCall w x).run.result with
  | none =>
    rw [hrun] at hend
    cases hend
  | some r =>
    rw [hrun] at hend
    exact hu e (hrun.trans (congrArg some hend))

/-- **A call from outside that is not refused is the same call without refused calls**, its story
included. -/
theorem Purges.call (h : w.Purges T b c v) (hw : w.Holds Action.OnKernel)
    (hx : x.All Command.OnKernel)
    (hT : (Machine.ofCall w x).Heeded T (Machine.ofCall w x).weight [])
    (hr : ∀ e, (w.call x).1 ≠ .ok (.refused e)) (rest : List Command)
    (hreply : reply = (w.call x).1.toOption) :
    (Machine.ofCall v (x.purged T reply)).story (Machine.ofCall v (x.purged T reply)).weight [] =
        ((Machine.ofCall w x).story (Machine.ofCall w x).weight []).filterMap (Chapter.purged T) ∧
      (w.ending x rest).purged T =
        some (v.ending (x.purged T reply) (purgedAll T none rest)) ∧
      ∃ b' c', (w.call x).2.Purges T b' c' (v.call (x.purged T reply)).2 := by
  have hrefused (hd : x.drives = false) (e : SimError) : (w.perform x).1 ≠ .ok (.refused e) := by
    rw [← reply_of_not_drives hd]
    exact hr e
  have hm := h.rebase.ofCall hx hrefused fun hd =>
    hreply.trans (congrArg Except.toOption (reply_of_not_drives hd))
  obtain ⟨hstory, hresult, hworld⟩ :=
    hm.steps (Machine.onKernel_ofCall hw hx) hT (Nat.le_refl _) (Nat.le_refl _)
  have hend : (v.call (x.purged T reply)).1 = (w.call x).1 :=
    congrArg (fun r => r.getD (.ok .done)) hresult
  refine ⟨hstory, ?_, hworld⟩
  rw [ending, ending, hend, hm.world.newsSince, Chapter.purged]
  dsimp only
  rw [Incident.purged_of_kept hr, ← hreply]
  rfl

/-- A call from outside that is refused ends at once, and its action is given up. -/
theorem ofCall_of_refused (hw : w.Holds Action.OnKernel) (hx : x.All Command.OnKernel)
    {e : SimError} (hr : (w.call x).1 = .ok (.refused e)) :
    x.Refusable ∧ Machine.ofCall w x =
      ⟨{ w with journal := releases x.action?.toList ++ w.journal }, [],
        some (.ok (.refused e))⟩ := by
  have hd := not_drives_of_refused hw hx hr
  have hp : (w.perform x).1 = .ok (.refused e) := (reply_of_not_drives hd).symm.trans hr
  obtain ⟨hrefusable, hworld⟩ := perform_of_refused hx.self hp
  have hperform : w.perform x = (.ok (.refused e), _) := Prod.ext hp hworld
  refine ⟨hrefusable, ?_⟩
  rw [Machine.ofCall, Machine.start_of_not_drives hd, hperform]
  rfl

theorem forgoes_ending (hw : w.Holds Action.OnKernel) (hx : x.All Command.OnKernel)
    (rest : List Command) : (w.ending x rest).Forgoes := by
  intro o c left e hi
  obtain ⟨-, rfl, -, hr⟩ := Incident.ended.inj (Option.some.inj hi)
  obtain ⟨hrefusable, hcall⟩ := ofCall_of_refused hw hx hr
  refine ⟨hrefusable, ?_⟩
  rw [ending, hcall]
  dsimp only
  rw [newsSince_append rfl, filter_releases]

/-- **A call from outside that is refused leaves nothing** but what the journal is told. -/
theorem Purges.call_refused (h : w.Purges T b c v) (hw : w.Holds Action.OnKernel)
    (hx : x.All Command.OnKernel) {e : SimError} (hr : (w.call x).1 = .ok (.refused e)) :
    (Machine.ofCall w x).story (Machine.ofCall w x).weight [] = [] ∧
      ∃ b' c', (w.call x).2.Purges T b' c' v := by
  obtain ⟨-, hcall⟩ := ofCall_of_refused hw hx hr
  have hstack : (Machine.ofCall w x).stack = [] := by rw [hcall]
  have hafter : (w.call x).2 = { w with journal := releases x.action?.toList ++ w.journal } := by
    show ((Machine.ofCall w x).steps _).world = _
    rw [Machine.steps_of_stack hstack, hcall]
  rw [hafter]
  exact ⟨Machine.story_of_stack hstack _, _, _, h.told _⟩

end World

end EventSim
