import EventSim.Proofs.Kernel.Consistent
import EventSim.Proofs.Scheduler.Mirrors

/-!
# Agendas

The agenda of a kernel is the list of the events that will run, in the order of their keys.  No
backend and no event that is stored but cancelled shows in it.  Scheduling adds one event, a
withdrawal takes one out, and **the run loop starts the first event of the agenda and leaves the
rest** (`Sound.agenda_of_started`), or skips an event that is not on it.
-/

namespace EventSim

namespace Kernel

variable {α : Type} {k k' : Kernel α} {h : Handle} {e : Event (Payload α)}

/-- The stored event will run. -/
def awaits (k : Kernel α) (e : Event (Payload α)) : Bool := decide (e.key.uid ∈ k.pending)

/-- The events that will run, in the order of their keys. -/
def agenda (k : Kernel α) : List (Event (Payload α)) := k.scheduler.sorted.filter k.awaits

theorem pairwise_agenda (k : Kernel α) : k.agenda.Pairwise fun x y => x.key.Before y.key :=
  k.scheduler.pairwise_sorted.filter _

/-- The same events are in the same order if each comes out before the next. -/
theorem eq_of_perm_of_before {l l' : List (Event (Payload α))} (hp : l.Perm l')
    (hl : l.Pairwise fun x y => x.key.Before y.key)
    (hl' : l'.Pairwise fun x y => x.key.Before y.key) : l = l' :=
  List.Perm.eq_of_pairwise (fun _ _ _ _ hxy hyx => absurd hyx hxy.asymm) hl hl' hp

theorem Sound.perm_agenda (s : k.Sound) :
    k.agenda.Perm (k.scheduler.toList.filter k.awaits) :=
  (Scheduler.perm_migrate s.distinct_keys .map).filter _

theorem Sound.mem_agenda (s : k.Sound) :
    e ∈ k.agenda ↔ e ∈ k.scheduler.toList ∧ e.key.uid ∈ k.pending := by
  rw [s.perm_agenda.mem_iff, List.mem_filter, awaits, decide_eq_true_iff]

theorem Sound.agenda_of_empty (s : k.Sound) (h : k.scheduler.toList = []) : k.agenda = [] := by
  have hp := s.perm_agenda
  rw [h] at hp
  exact hp.eq_nil

/-- What stays after one event is gone, which no other event shares its number with. -/
theorem Sound.filter_awaits (s : k.Sound) {rest : Scheduler (Payload α)}
    (hp : k.scheduler.toList.Perm (e :: rest.toList)) :
    rest.toList.filter (fun x => decide (x.key.uid ∈ k.pending.erase e.key.uid)) =
      rest.toList.filter k.awaits := by
  refine List.filter_congr fun x hx => ?_
  have huids : k.storedUids.Perm (e.key.uid :: rest.toList.map fun x => x.key.uid) :=
    hp.map fun x : Event (Payload α) => x.key.uid
  have hne : x.key.uid ≠ e.key.uid := by
    intro heq
    have hnodup := List.nodup_cons.1 (huids.nodup_iff.1 s.nodup_stored)
    exact hnodup.1 (heq ▸ List.mem_map.2 ⟨x, hx, rfl⟩)
  rw [awaits, decide_eq_decide]
  exact List.mem_erase_of_ne hne

/-! ### Scheduling -/

/-- **A stored event is one more on the agenda.** -/
theorem Sound.agenda_store (s : k.Sound) {time : Time} (ht : k.now ≤ time) (context : Context)
    (payload : Payload α) : (k.store time context payload).2.agenda.Perm
      (⟨⟨time, k.nextUid, context⟩, payload⟩ :: k.agenda) := by
  have s' := s.store ht context payload
  have hfresh {x : Event (Payload α)} (hx : x ∈ k.scheduler.toList) : x.key.uid ≠ k.nextUid := by
    have hlt := (s.minted _ (List.mem_append_left _ (mem_storedUids hx))).2
    exact Nat.ne_of_lt hlt
  have hold : k.scheduler.toList.filter (k.store time context payload).2.awaits =
      k.scheduler.toList.filter k.awaits := by
    refine List.filter_congr fun x hx => ?_
    rw [awaits, awaits, decide_eq_decide]
    exact List.mem_cons.trans (or_iff_right (hfresh hx))
  have hnew : (k.store time context payload).2.awaits
      ⟨⟨time, k.nextUid, context⟩, payload⟩ = true :=
    decide_eq_true List.mem_cons_self
  refine s'.perm_agenda.trans (((s.perm_store time context payload).filter _).trans ?_)
  rw [List.filter_cons_of_pos hnew, hold]
  exact s.perm_agenda.symm.cons _

/-! ### Withdrawals -/

/-- An event that is not on the agenda cannot be taken out of it. -/
theorem Sound.filter_agenda_of_not_mem (s : k.Sound) {uid : Nat} (hu : uid ∉ k.pending) :
    k.agenda.filter (fun e => decide (e.key.uid ≠ uid)) = k.agenda := by
  refine List.filter_eq_self.2 fun e he => decide_eq_true fun heq => ?_
  exact hu (heq ▸ (s.mem_agenda.1 he).2)

/-- **A cancelled event is not on the agenda any more.** -/
theorem Sound.agenda_cancel (s : k.Sound) (hi : k.Issued h) (ht : h.kind = .timed) :
    (k.cancel h).2.agenda = k.agenda.filter fun e => decide (e.key.uid ≠ h.uid) := by
  simp only [Kernel.cancel, if_pos hi, ht]
  by_cases hu : h.uid ∈ k.pending
  · rw [if_pos hu]
    refine Eq.trans ?_ (List.filter_filter ..).symm
    refine List.filter_congr fun x _ => ?_
    have hnodup : k.pending.Nodup := (List.nodup_append.1 s.nodup_sets).1
    rw [awaits, awaits, ← Bool.decide_and, decide_eq_decide]
    exact hnodup.mem_erase_iff
  · rw [if_neg hu]
    exact (s.filter_agenda_of_not_mem hu).symm

/-- **Neither is a removed one.** -/
theorem Sound.agenda_remove (s : k.Sound) (hi : k.Issued h) (hk : k.Knows h)
    (ht : h.kind = .timed) :
    (k.remove h).2.agenda = k.agenda.filter fun e => decide (e.key.uid ≠ h.uid) := by
  have s' : (k.remove h).2.Sound := s.remove fun _ => hk
  by_cases hu : h.uid ∈ k.pending ∨ h.uid ∈ k.cancelled
  · obtain ⟨e, rest, hr, he, hp⟩ := s.exists_remove hk ht hu
    have hsorted := k.pairwise_agenda.filter fun e => decide (e.key.uid ≠ h.uid)
    refine eq_of_perm_of_before ?_ (pairwise_agenda _) hsorted
    refine s'.perm_agenda.trans ?_
    have hrest : rest.toList.filter (k.remove h).2.awaits = rest.toList.filter k.awaits := by
      rw [← s.filter_awaits hp, he]
      simp only [Kernel.remove, if_pos hi, ht, if_pos hu]
      rfl
    have hlist : (k.remove h).2.scheduler = rest := by
      simp only [Kernel.remove, if_pos hi, ht, if_pos hu, hr]
    have hold : ((e :: rest.toList).filter k.awaits).filter
        (fun x => decide (x.key.uid ≠ h.uid)) = rest.toList.filter k.awaits := by
      have huids : k.storedUids.Perm (e.key.uid :: rest.toList.map fun x => x.key.uid) :=
        hp.map fun x : Event (Payload α) => x.key.uid
      have hnodup := List.nodup_cons.1 (huids.nodup_iff.1 s.nodup_stored)
      rw [List.filter_filter, List.filter_cons_of_neg (by simp [he])]
      refine List.filter_congr fun x hx => ?_
      have hne : x.key.uid ≠ h.uid := fun heq =>
        hnodup.1 (List.mem_map.2 ⟨x, hx, heq.trans he.symm⟩)
      simp [hne]
    rw [hlist, hrest, ← hold]
    exact ((hp.filter _).symm.trans s.perm_agenda.symm).filter _
  · have hsame : (k.remove h).2 = k := by
      rw [not_or] at hu
      simp only [Kernel.remove, if_pos hi, ht, hu.1, hu.2, or_self, if_false,
        List.erase_of_not_mem hu.1, List.erase_of_not_mem hu.2]
    rw [not_or] at hu
    rw [hsame, s.filter_agenda_of_not_mem hu.1]

/-! ### The run loop -/

/-- **The run loop starts the first event of the agenda.** -/
theorem Sound.agenda_of_started (s : k.Sound) (hd : k.dequeue = .started e k') :
    k.agenda = e :: k'.agenda := by
  have s' := s.started hd
  obtain ⟨rest, hp, hc, -, rfl⟩ := dequeue_eq_started hd
  have hperm := Scheduler.perm_pop hp
  have he : e ∈ k.scheduler.toList := hperm.mem_iff.2 List.mem_cons_self
  have hpending : e.key.uid ∈ k.pending := (s.mem_sets.1 (mem_storedUids he)).resolve_right hc
  have hfirst : ∀ x ∈ rest.toList, e.key.Before x.key := by
    intro x hx
    have hdistinct := hperm.pairwise s.distinct_keys fun hxy hyx => hxy hyx.symm
    have hne : ¬ e.key.Same x.key := (List.pairwise_cons.1 hdistinct).1 x hx
    exact EventKey.before_of_not_before_of_not_same (s.ordered.pop_first hp x
      (hperm.mem_iff.2 (List.mem_cons_of_mem _ hx))) hne
  refine eq_of_perm_of_before ?_ k.pairwise_agenda (List.pairwise_cons.2 ⟨?_, pairwise_agenda _⟩)
  · refine s.perm_agenda.trans ((hperm.filter _).trans ?_)
    have hleft : _ = rest.toList.filter k.awaits := s.filter_awaits hperm
    have hpos : k.awaits e = true := decide_eq_true hpending
    rw [List.filter_cons_of_pos hpos, ← hleft]
    exact s'.perm_agenda.symm.cons _
  · exact fun x hx => hfirst x (s'.mem_agenda.1 hx).1

/-- What the run loop skips is not on the agenda. -/
theorem Sound.agenda_of_skipped {payload : Payload α} (s : k.Sound)
    (hd : k.dequeue = .skipped payload k') : k'.agenda = k.agenda := by
  have s' := s.skipped hd
  obtain ⟨e, rest, hp, -, hc, rfl⟩ := dequeue_eq_skipped hd
  have hperm := Scheduler.perm_pop hp
  have hpending : e.key.uid ∉ k.pending := fun hm => s.not_cancelled hm hc
  refine eq_of_perm_of_before ?_ (pairwise_agenda _) k.pairwise_agenda
  have hneg : ¬ k.awaits e = true := by simpa [awaits] using hpending
  have hskip := (hperm.filter k.awaits).symm
  rw [List.filter_cons_of_neg hneg] at hskip
  exact s'.perm_agenda.trans (hskip.trans s.perm_agenda.symm)

/-- A run loop that ends unasked has nothing left to do. -/
theorem Sound.agenda_of_idle (s : k.Sound) (hs : k.stopping = false) (hd : k.dequeue = .idle) :
    k.agenda = [] := by
  refine s.agenda_of_empty ?_
  cases hp : k.scheduler.pop with
  | none => exact Scheduler.pop_eq_none.1 hp
  | some r =>
    obtain ⟨e, rest⟩ := r
    have he : e ∈ k.scheduler.toList := (Scheduler.perm_pop hp).mem_iff.2 List.mem_cons_self
    by_cases hc : e.key.uid ∈ k.cancelled
    · rw [dequeue_of_pop_cancelled hs hp hc] at hd
      cases hd
    · rw [dequeue_of_pop hs hp hc (s.due e he)] at hd
      cases hd

/-! ### Runs -/

/-- A turn of the run loop has taken one event. -/
structure Turned (k k' : Kernel α) : Prop where
  id_eq : k'.id = k.id
  stopping_eq : k'.stopping = k.stopping
  teardowns_eq : k'.teardowns = k.teardowns
  left : ∃ e, k.scheduler.toList.Perm (e :: k'.scheduler.toList)

theorem turned_of_started (hd : k.dequeue = .started e k') : k.Turned k' := by
  obtain ⟨rest, hp, -, -, rfl⟩ := dequeue_eq_started hd
  exact ⟨rfl, rfl, rfl, e, Scheduler.perm_pop hp⟩

theorem turned_of_skipped {payload : Payload α} (hd : k.dequeue = .skipped payload k') :
    k.Turned k' := by
  obtain ⟨e, rest, hp, -, -, rfl⟩ := dequeue_eq_skipped hd
  exact ⟨rfl, rfl, rfl, e, Scheduler.perm_pop hp⟩

theorem Turned.length_lt (t : k.Turned k') :
    k'.scheduler.toList.length < k.scheduler.toList.length := by
  obtain ⟨e, hp⟩ := t.left
  rw [hp.length_eq]
  exact Nat.lt_succ_self _

theorem Turned.mem (t : k.Turned k') (he : e ∈ k'.scheduler.toList) : e ∈ k.scheduler.toList := by
  obtain ⟨x, hp⟩ := t.left
  exact hp.mem_iff.2 (List.mem_cons_of_mem x he)

/-- The present after the last of some events. -/
def lastTime (now : Time) (l : List (Event (Payload α))) : Time :=
  l.foldl (fun _ e => e.key.time) now

/-- The kernel has run its agenda. -/
structure Ran (k k' : Kernel α) : Prop where
  id_eq : k'.id = k.id
  sound : k'.Sound
  teardowns_eq : k'.teardowns = k.teardowns
  executed_eq : k'.executed = k.executed + k.agenda.length
  now_eq : k'.now = lastTime k.now k.agenda

theorem Sound.ran_endRun (s : k.Sound) (hs : k.stopping = false) (hd : k.dequeue = .idle) :
    k.Ran k.endRun := by
  have hempty := s.agenda_of_idle hs hd
  constructor
  case id_eq | teardowns_eq => rfl
  case sound => exact s.endRun
  case executed_eq | now_eq =>
    rw [hempty]
    rfl

theorem Sound.ran_of_skipped {payload : Payload α} {l : Kernel α} (s : k.Sound)
    (hd : k.dequeue = .skipped payload k') (h : k'.Ran l) : k.Ran l := by
  have hagenda := s.agenda_of_skipped hd
  have ht := turned_of_skipped hd
  obtain ⟨e, rest, -, -, -, hk'⟩ := dequeue_eq_skipped hd
  have hexecuted : k'.executed = k.executed := by rw [hk']
  have hnow : k'.now = k.now := by rw [hk']
  constructor
  case id_eq => exact h.id_eq.trans ht.id_eq
  case sound => exact h.sound
  case teardowns_eq => exact h.teardowns_eq.trans ht.teardowns_eq
  case executed_eq => rw [h.executed_eq, hagenda, hexecuted]
  case now_eq => rw [h.now_eq, hagenda, hnow]

theorem Sound.ran_of_started {l : Kernel α} (s : k.Sound) (hd : k.dequeue = .started e k')
    (h : k'.Ran l) : k.Ran l := by
  have hagenda := s.agenda_of_started hd
  have ht := turned_of_started hd
  obtain ⟨rest, -, -, -, hk'⟩ := dequeue_eq_started hd
  have hexecuted : k'.executed = k.executed + 1 := by rw [hk']
  have hnow : k'.now = e.key.time := by rw [hk']
  constructor
  case id_eq => exact h.id_eq.trans ht.id_eq
  case sound => exact h.sound
  case teardowns_eq => exact h.teardowns_eq.trans ht.teardowns_eq
  case executed_eq =>
    rw [h.executed_eq, hagenda, hexecuted, List.length_cons]
    omega
  case now_eq =>
    rw [h.now_eq, hagenda, hnow]
    rfl

end Kernel

end EventSim
