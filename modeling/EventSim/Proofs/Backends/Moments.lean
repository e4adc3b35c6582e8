import EventSim.Proofs.Backends.Machines
import EventSim.Journal
import Mathlib.Data.Multiset.Filter

/-!
# What is seen of a run

A run is seen as a list of moments, one for each step.  A moment tells which action starts, and when
and under which context; how the command that is carried out ends; what the journal is told; and the
state after the step.  Three things are not seen: how the events lie in a scheduler, so that each
state is looked at as if all kernels had an ordered map; the steps that attach a scheduler; and the
order in which a destruction gives actions up.

`Mirrors.moment`: **machines that mirror one another are seen to do the same.**
-/

namespace EventSim

/-! ### States -/

/-- The event without calls that attach schedulers. -/
def Event.unattached (e : Event (Payload Action)) : Event (Payload Action) :=
  e.map (Payload.map Action.unattached)

/-- The engine with its events in an ordered map, and without calls that attach schedulers. -/
def Engine.plain : Engine Action → Engine Action
  | .builtIn watched k =>
    .builtIn watched (k.mirror Action.unattached (.map ⟨k.scheduler.sorted.map Event.unattached⟩))
  | .fixed k => .fixed k

/-- The world with the events of every kernel in an ordered map, without the journal and without
calls that attach schedulers. -/
def World.plain (w : World) : World :=
  { w with engines := w.engines.map Engine.plain, journal := [] }

/-- The machine in a plain world, its stack without calls that attach schedulers. -/
def Machine.plain (m : Machine) : Machine :=
  ⟨m.world.plain, m.stack.map Frame.unattached, m.result⟩

/-! ### Moments -/

/-- What is told in a step. -/
inductive Tiding where
  | entry (e : Entry)
  /-- A destruction gave these actions up. -/
  | gaveUp (tags : Multiset String)

/-- What is seen of a step. -/
structure Moment where
  /-- The action that starts, the present and its context. -/
  action : Option (Action × Time × Context)
  /-- How the command that is carried out ends, unless it runs actions. -/
  answer : Option (Except Panic Reply)
  tidings : List Tiding
  after : Machine

/-- What the journal was told since it was `b`, the oldest first. -/
def World.newsSince (w : World) (b : List Entry) : List Entry :=
  (w.journal.take (w.journal.length - b.length)).reverse

namespace Machine

/-- The action that starts in the next step. -/
def action? (m : Machine) : Option (Action × Time × Context) :=
  match m.stack with
  | .running id :: _ =>
    match m.world.engine? id with
    | some (.builtIn _ k) =>
      match k.dequeue with
      | .started e k => e.payload.action?.map fun a => (a, k.now, k.context)
      | _ => none
    | _ => none
  | .destroying id :: _ =>
    match m.world.engine? id with
    | some (.builtIn _ k) => k.popTeardown.map fun r => (r.1.action, k.now, k.context)
    | _ => none
  | _ => none

/-- How the command ends that is carried out in the next step. -/
def answer? (m : Machine) : Option (Except Panic Reply) :=
  match m.stack with
  | .body _ (x :: _) :: _ => if x.drives then none else some (m.world.perform x).1
  | _ => none

/-- What is told in the next step. -/
def tidings (m : Machine) : List Tiding :=
  let news := m.step.world.newsSince m.world.journal
  if m.sweeps then
    .gaveUp ((news.filter Journal.isRelease).map Journal.releaseTag) ::
      (news.filter fun e => !Journal.isRelease e).map .entry
  else news.map .entry

/-- What is seen of the next step. -/
def moment (m : Machine) : Moment where
  action := m.action?.map fun r => (r.1.unattached, r.2)
  answer := m.answer?
  tidings := m.tidings
  after := m.step.plain

/-- What is seen of `n` steps, or of fewer if the outermost call ends before. -/
def moments : Nat → Machine → List Moment
  | 0, _ => []
  | n + 1, m =>
    if m.stack.isEmpty then []
    else if m.attaches then moments n m.step
    else m.moment :: moments n m.step

end Machine

/-! ### Mirrors are seen alike -/

namespace World

variable {known : Nat → Prop} {b c : List Entry} {w v : World}

theorem unattached_comp_map :
    Event.unattached ∘ Event.map (Payload.map Action.unattached) = Event.unattached := by
  funext e
  obtain ⟨key, payload⟩ := e
  cases payload <;> simp [Event.unattached, Event.map, Payload.map, Action.unattached_unattached]

theorem Mirrors.plain (m : Mirrors known b c w v) : v.plain = w.plain := by
  have hengines {l l' : List (Engine Action)} (h : List.Forall₂ (Engine.Mirrors known) l l') :
      l'.map Engine.plain = l.map Engine.plain := by
    induction h with
    | nil => rfl
    | cons hx _ ih =>
      rw [List.map_cons, List.map_cons, ih]
      cases hx with
      | mk hk =>
        obtain ⟨hs, -, -⟩ := hk
        have hevents := congrArg (List.map Event.unattached) hs.sorted_eq
        rw [List.map_map, unattached_comp_map] at hevents
        simp [Engine.plain, Kernel.mirror, TeardownEvent.map, Action.unattached_unattached, hevents]
  obtain ⟨he, -, -⟩ := m
  simp only [World.plain, hengines he]

theorem newsSince_append {j : List Entry} (h : w.journal = j ++ b) : w.newsSince b = j.reverse := by
  have hlen : (j ++ b).length - b.length = j.length := by
    rw [List.length_append, Nat.add_sub_cancel]
  rw [newsSince, h, hlen, List.take_left']
  rfl

theorem Mirrors.newsSince {x y : List Entry} (m : Mirrors known (x ++ b) (y ++ c) w v) :
    ∃ j, w.newsSince b = x.reverse ++ j ∧ v.newsSince c = y.reverse ++ j := by
  obtain ⟨-, hj, -⟩ := m
  rename_i j
  refine ⟨j.reverse, ?_, ?_⟩
  · rw [← List.reverse_append]
    exact newsSince_append (hj.trans (List.append_assoc ..).symm)
  · rw [← List.reverse_append]
    exact newsSince_append (List.append_assoc ..).symm

theorem isRelease_of_mem_releases {l : List Action} {e : Entry} (he : e ∈ (releases l).reverse) :
    Journal.isRelease e = true := by
  rw [releases, List.reverse_reverse] at he
  obtain ⟨tag, -, rfl⟩ := List.mem_map.1 he
  rfl

end World

namespace Machine

variable {known : Nat → Prop} {b c : List Entry} {m n : Machine}

namespace Mirrors

theorem plain (h : Mirrors known b c m n) : n.plain = m.plain := by
  obtain ⟨hm, -⟩ := h
  rename_i w v s result
  have hframe (f : Frame) : f.unattached.unattached = f.unattached := by
    cases f <;> simp [Frame.unattached, unattachedAll_unattachedAll]
  simp [Machine.plain, hm.plain, hframe]

/-- **The same action starts, at the same time and under the same context.** -/
theorem action? (h : Mirrors known b c m n) :
    n.action? = m.action?.map fun r => (r.1.unattached, r.2) := by
  obtain ⟨hm, hs⟩ := h
  rename_i w v s result
  rcases s with _ | ⟨f, rest⟩
  · rfl
  · cases f with
    | running id =>
      simp only [Machine.action?, List.map_cons, Frame.unattached]
      rcases hm.engine? id with ⟨hw, hv⟩ | ⟨k, l, hw, hv, hk⟩
      · rw [hw, hv]
        rfl
      · rw [hw, hv]
        dsimp only
        have hd := hk.dequeue
        generalize k.dequeue = d at hd
        generalize l.dequeue = d' at hd
        cases hd with
        | started ha hk' =>
          rename_i k' l' e
          obtain ⟨key, payload⟩ := e
          cases hk'
          cases payload <;> rfl
        | _ => rfl
    | destroying id =>
      simp only [Machine.action?, List.map_cons, Frame.unattached]
      rcases hm.engine? id with ⟨hw, hv⟩ | ⟨k, l, hw, hv, hk⟩
      · rw [hw, hv]
        rfl
      · rw [hw, hv]
        dsimp only
        cases hp : k.popTeardown with
        | none =>
          rw [hk.popTeardown_none hp]
          rfl
        | some r =>
          obtain ⟨e, k'⟩ := r
          obtain ⟨-, l', hp', -⟩ := hk.popTeardown hp
          rw [hp']
          cases hk
          rfl
    | _ => rfl

/-- **The command that is carried out ends in the same way.** -/
theorem answer? (h : Mirrors known b c m n) (ha : m.attaches = false) : n.answer? = m.answer? := by
  obtain ⟨hm, hs⟩ := h
  rename_i w v s result
  rcases s with _ | ⟨f, rest⟩
  · rfl
  · have hf := List.forall_mem_cons.1 hs
    cases f with
    | body reporting left =>
      rcases left with _ | ⟨x, left⟩
      · rfl
      · have hx : x.attaches = false := ha
        have hbody : unattachedAll (x :: left) = x.unattached :: unattachedAll left := by
          rw [unattachedAll, hx, if_neg Bool.false_ne_true]
        have hdrives : x.unattached.drives = x.drives := by cases x <;> rfl
        have hperform := World.Ends.perform hm (List.forall_mem_cons.1 hf.1).1 hx
        simp only [Machine.answer?, List.map_cons, Frame.unattached, hbody, hdrives,
          hperform.reply]
    | _ => rfl

theorem rebase (h : Mirrors known b c m n) :
    Mirrors known m.world.journal n.world.journal m n := by
  obtain ⟨hm, hs⟩ := h
  exact .mk hm.rebase hs

theorem world (h : Mirrors known b c m n) : m.world.Mirrors known b c n.world := by
  obtain ⟨hm, -⟩ := h
  exact hm

/-- **The same is told**, the order apart in which a destruction gives actions up. -/
theorem tidings (h : Mirrors known b c m n) (hne : m.stack ≠ []) (ha : m.attaches = false) :
    n.tidings = m.tidings := by
  unfold Machine.tidings
  rw [h.sweeps_eq]
  cases hw : m.sweeps with
  | false =>
    obtain ⟨j, hj, hj'⟩ := World.Mirrors.newsSince (x := []) (y := [])
      (h.rebase.step hne ha hw).world
    simp only [hj, hj', List.reverse_nil]
  | true =>
    obtain ⟨l, l', hl, hstep⟩ := h.step_of_sweeps hw
    obtain ⟨j, hj, hj'⟩ := hstep.world.newsSince
    have hperm : (World.releases l').reverse.Perm (World.releases l).reverse :=
      (List.reverse_perm _).trans ((World.perm_releases hl).trans (List.reverse_perm _).symm)
    have hrest (l : List Action) :
        (World.releases l).reverse.filter (fun e => !Journal.isRelease e) = [] :=
      List.filter_eq_nil_iff.2 fun e he => by simp [World.isRelease_of_mem_releases he]
    have htags := ((hperm.append_right j).filter Journal.isRelease).map Journal.releaseTag
    simp only [hj, hj', if_true, Multiset.coe_eq_coe.2 htags]
    simp only [List.filter_append, hrest]

/-- **Machines that mirror one another are seen to do the same.** -/
theorem moment (h : Mirrors known b c m n) (hne : m.stack ≠ []) (ha : m.attaches = false) :
    n.moment = m.moment := by
  have hafter : n.step.plain = m.step.plain := by
    cases hw : m.sweeps with
    | false => exact (h.step hne ha hw).plain
    | true =>
      obtain ⟨l, l', -, hstep⟩ := h.step_of_sweeps hw
      exact hstep.plain
  have haction : n.action?.map (fun r => (r.1.unattached, r.2)) =
      m.action?.map fun r => (r.1.unattached, r.2) := by
    rw [h.action?, Option.map_map]
    simp only [Function.comp_def, Action.unattached_unattached]
  simp only [Machine.moment, haction, h.answer? ha, h.tidings hne ha, hafter]

end Mirrors

end Machine

end EventSim
