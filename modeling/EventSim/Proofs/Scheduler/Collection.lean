import EventSim.Proofs.Scheduler.HeapOrder
import EventSim.Proofs.Scheduler.SortedOrder
import EventSim.Scheduler

/-!
# Schedulers as collections

What the backends have in common, stated on the view `toList`.

* For every backend, what an operation hands out and what it leaves are together what was inside
  (`perm_pop`, `perm_remove`), and no payload comes from nowhere (`payloads_insert`,
  `payloads_migrate`).
* `Ordered` says that a scheduler is one of the built-in backends and lies in its order.  Every
  operation keeps it, a dequeue then hands out an event before which none comes (`pop_first`), and
  a removal finds the event under a key if there is one (`remove_none`).
* An event under a key that is not taken is added and nothing else happens (`perm_insert`), so
  events under keys that are all different move into another backend as they are (`perm_migrate`).
-/

namespace EventSim

theorem Pile.perm_select {α : Type} {p : Preference} {l rest : List (Event α)} {e : Event α}
    (h : Pile.select p l = some (e, rest)) : l.Perm (e :: rest) := by
  induction l generalizing e rest with
  | nil => cases h
  | cons x l ih =>
    rw [Pile.select] at h
    split at h
    · cases h
      exact .refl _
    · rename_i first others hs
      split at h
      · cases h
        exact ((ih hs).cons x).trans (.swap e x _)
      · cases h
        exact .refl _

theorem Pile.select_eq_none {α : Type} {p : Preference} {l : List (Event α)} :
    Pile.select p l = none ↔ l = [] := by
  cases l with
  | nil => simp [Pile.select]
  | cons x l =>
    rw [Pile.select]
    split
    · simp
    · split <;> simp

namespace Scheduler

variable {α : Type} {s rest : Scheduler α} {e : Event α} {key : EventKey} {b : Backend}

/-- One of the built-in backends, its events in its order. -/
def Ordered : Scheduler α → Prop
  | .map m => SortedMap.Ordered m.events
  | .heap h => BinaryHeap.Ordered h.entries
  | .list l => SortedList.Ordered l.events
  | .pile _ => False

/-- No two events inside are under one key. -/
def Distinct (s : Scheduler α) : Prop := s.toList.Pairwise fun x y => ¬ x.key.Same y.key

/-- The payloads inside. -/
def payloads (s : Scheduler α) : List α := s.toList.map Event.payload

/-! ### The empty scheduler -/

@[simp] theorem toList_empty (b : Backend) : (empty b : Scheduler α).toList = [] := by
  cases b <;> rfl

theorem ordered_empty (hb : b.isBuiltIn = true) : (empty b : Scheduler α).Ordered := by
  cases b with
  | map => exact List.Pairwise.nil
  | heap => exact BinaryHeap.ordered_empty
  | list => exact List.Pairwise.nil
  | pile p t => cases hb

/-! ### Insertion -/

theorem payloads_insert (s : Scheduler α) (e : Event α) :
    (s.insert e).payloads.Subperm (e.payload :: s.payloads) := by
  cases s with
  | map m => exact SortedMap.payloads_place e m.events
  | heap h => exact ((BinaryHeap.perm_insert h e).map _).subperm
  | list l => exact ((SortedList.perm_insert l e).map _).subperm
  | pile q => exact ((List.perm_append_singleton e q.events).map _).subperm

theorem perm_insert (h : ∀ x ∈ s.toList, ¬ e.key.Same x.key) :
    (s.insert e).toList.Perm (e :: s.toList) := by
  cases s with
  | map m => exact SortedMap.perm_place h
  | heap q => exact BinaryHeap.perm_insert q e
  | list l => exact SortedList.perm_insert l e
  | pile q => exact List.perm_append_singleton e q.events

theorem Ordered.insert (o : s.Ordered) (e : Event α) : (s.insert e).Ordered := by
  cases s with
  | map m => exact SortedMap.Ordered.place o e
  | heap q => exact BinaryHeap.Ordered.insert o e
  | list l => exact SortedList.Ordered.insert o e
  | pile q => cases o

/-! ### Dequeuing -/

theorem pop_eq_none : s.pop = none ↔ s.toList = [] := by
  cases s with
  | map m => cases hm : m.events <;> simp [pop, SortedMap.pop, toList, hm]
  | heap q => simp [pop, toList, BinaryHeap.pop_eq_none]
  | list l => cases hl : l.events <;> simp [pop, SortedList.pop, toList, hl]
  | pile q => simp [pop, Pile.pop, toList, Pile.select_eq_none]

theorem cons_of_pop_map {m : SortedMap α} (h : (map m).pop = some (e, rest)) :
    ∃ l, m.events = e :: l ∧ rest = .map ⟨l⟩ := by
  cases hm : m.events with
  | nil => simp [pop, SortedMap.pop, hm] at h
  | cons x l =>
    simp only [pop, SortedMap.pop, hm, Option.map_some, Option.some.injEq, Prod.mk.injEq] at h
    exact ⟨l, by rw [h.1], h.2.symm⟩

theorem cons_of_pop_list {q : SortedList α} (h : (list q).pop = some (e, rest)) :
    ∃ r, q.events = e :: r.events ∧ rest = .list r := by
  cases hq : q.events with
  | nil => simp [pop, SortedList.pop, hq] at h
  | cons x l =>
    simp only [pop, SortedList.pop, hq, Option.map_some, Option.some.injEq, Prod.mk.injEq] at h
    exact ⟨_, by rw [h.1], h.2.symm⟩

theorem pop_of_pop_heap {q : BinaryHeap α} (h : (heap q).pop = some (e, rest)) :
    ∃ r, q.pop = some (e, r) ∧ rest = .heap r := by
  obtain ⟨⟨x, r⟩, hp, hr⟩ := Option.map_eq_some_iff.1 h
  cases hr
  exact ⟨r, hp, rfl⟩

theorem perm_pop (h : s.pop = some (e, rest)) : s.toList.Perm (e :: rest.toList) := by
  cases s with
  | map m =>
    obtain ⟨l, hm, rfl⟩ := cons_of_pop_map h
    rw [toList, hm]
    exact .refl _
  | heap q =>
    obtain ⟨r, hp, rfl⟩ := pop_of_pop_heap h
    exact BinaryHeap.perm_pop hp
  | list q =>
    obtain ⟨r, hq, rfl⟩ := cons_of_pop_list h
    rw [toList, hq]
    exact .refl _
  | pile q =>
    obtain ⟨⟨x, r⟩, hp, hr⟩ := Option.map_eq_some_iff.1 h
    cases hr
    obtain ⟨⟨y, l⟩, hs, hl⟩ := Option.map_eq_some_iff.1 hp
    cases hl
    exact Pile.perm_select hs

theorem Ordered.pop (o : s.Ordered) (h : s.pop = some (e, rest)) : rest.Ordered := by
  cases s with
  | map m =>
    obtain ⟨l, hm, rfl⟩ := cons_of_pop_map h
    rw [Ordered, hm] at o
    exact (List.pairwise_cons.1 o).2
  | heap q =>
    obtain ⟨r, hp, rfl⟩ := pop_of_pop_heap h
    exact BinaryHeap.Ordered.pop o hp
  | list q =>
    obtain ⟨r, hq, rfl⟩ := cons_of_pop_list h
    rw [Ordered, hq] at o
    exact (List.pairwise_cons.1 o).2
  | pile q => cases o

/-- **Nothing comes out before the event that is handed out.** -/
theorem Ordered.pop_first (o : s.Ordered) (h : s.pop = some (e, rest)) :
    ∀ x ∈ s.toList, ¬ x.key.Before e.key := by
  cases s with
  | map m =>
    obtain ⟨l, hm, -⟩ := cons_of_pop_map h
    rw [Ordered, hm] at o
    intro x hx
    rw [toList, hm] at hx
    rcases List.mem_cons.1 hx with rfl | hx
    · exact EventKey.before_irrefl _
    · exact ((List.pairwise_cons.1 o).1 x hx).asymm
  | heap q =>
    obtain ⟨r, hp, -⟩ := pop_of_pop_heap h
    exact BinaryHeap.Ordered.pop_first o hp
  | list q =>
    obtain ⟨r, hq, -⟩ := cons_of_pop_list h
    rw [Ordered, hq] at o
    intro x hx
    rw [toList, hq] at hx
    rcases List.mem_cons.1 hx with rfl | hx
    · exact EventKey.before_irrefl _
    · exact (List.pairwise_cons.1 o).1 x hx
  | pile q => cases o

/-! ### Removal -/

theorem perm_remove (s : Scheduler α) (key : EventKey) :
    s.toList.Perm ((s.remove key).1.toList ++ (s.remove key).2.toList) := by
  cases s with
  | map m =>
    cases hf : m.events.find? fun x => decide (x.key.Same key) with
    | none =>
      simp only [remove, SortedMap.remove, toList, hf, Option.toList_none, List.nil_append]
      rw [List.eraseP_of_forall_not (by simpa using hf)]
    | some x =>
      simp only [remove, SortedMap.remove, toList, hf, Option.toList_some, List.singleton_append]
      exact perm_of_find? hf
  | heap q =>
    show q.entries.toList.Perm ((q.remove key).1.toList ++ (q.remove key).2.entries.toList)
    cases hr : (q.remove key).1 with
    | none => exact (BinaryHeap.remove_none hr).2.symm
    | some x => exact (BinaryHeap.remove_some hr).2
  | list l =>
    show l.events.Perm ((l.remove key).1.toList ++ (l.remove key).2.events)
    cases hr : (l.remove key).1 with
    | none =>
      rw [(SortedList.remove_none hr).2]
      exact .refl _
    | some x => exact (SortedList.remove_some hr).2
  | pile q =>
    show q.events.Perm ((q.remove key).1.toList ++ (q.remove key).2.events)
    rw [Pile.remove]
    split
    · exact .refl _
    · cases hf : q.events.find? fun x => decide (x.key.Same key) with
      | none =>
        rw [List.eraseP_of_forall_not (by simpa using hf)]
        exact .refl _
      | some x => exact perm_of_find? hf

theorem Ordered.remove (o : s.Ordered) (key : EventKey) : (s.remove key).2.Ordered := by
  cases s with
  | map m => exact List.Pairwise.sublist List.eraseP_sublist o
  | heap q => exact BinaryHeap.ordered_remove q key
  | list l => exact List.Pairwise.sublist (SortedList.sublist_remove l key) o
  | pile q => cases o

theorem Ordered.remove_none (o : s.Ordered) (h : (s.remove key).1 = none) :
    ∀ x ∈ s.toList, ¬ x.key.Same key := by
  cases s with
  | map m =>
    have hf : (m.events.find? fun x => decide (x.key.Same key)) = none := h
    simpa [toList] using hf
  | heap q => exact (BinaryHeap.remove_none h).1
  | list l => exact (SortedList.remove_none h).1
  | pile q => cases o

theorem remove_some (h : (s.remove key).1 = some e) : e.key.Same key := by
  cases s with
  | map m =>
    have hf : (m.events.find? fun x => decide (x.key.Same key)) = some e := h
    simpa using List.find?_some hf
  | heap q => exact (BinaryHeap.remove_some h).1
  | list l => exact (SortedList.remove_some h).1
  | pile q =>
    have hr : (q.remove key).1 = some e := h
    rw [Pile.remove] at hr
    split at hr
    · cases hr
    · simpa using List.find?_some hr

/-! ### Moving into another backend -/

theorem perm_popMany (s : Scheduler α) (n : Nat) :
    s.toList.Perm ((s.popMany n).1 ++ (s.popMany n).2.toList) := by
  induction n generalizing s with
  | zero => exact .refl _
  | succ n ih =>
    rw [popMany]
    cases hp : s.pop with
    | none => exact .refl _
    | some r =>
      obtain ⟨e, rest⟩ := r
      exact (perm_pop hp).trans ((ih rest).cons e)

theorem popMany_all (s : Scheduler α) {n : Nat} (h : s.toList.length ≤ n) :
    (s.popMany n).2.toList = [] := by
  induction n generalizing s with
  | zero => simpa [popMany] using h
  | succ n ih =>
    rw [popMany]
    cases hp : s.pop with
    | none => exact pop_eq_none.1 hp
    | some r =>
      obtain ⟨e, rest⟩ := r
      refine ih rest ?_
      have := (perm_pop hp).length_eq
      rw [List.length_cons] at this
      omega

theorem perm_drain (s : Scheduler α) : s.drain.Perm s.toList := by
  have hall : (s.popMany s.size).2.toList = [] := popMany_all s (Nat.le_refl _)
  have h := perm_popMany s s.size
  rw [hall, List.append_nil] at h
  exact h.symm

theorem payloads_foldl_insert (l : List (Event α)) (s : Scheduler α) :
    (l.foldl insert s).payloads.Subperm (l.map Event.payload ++ s.payloads) := by
  induction l generalizing s with
  | nil => exact .refl _
  | cons e l ih =>
    refine (ih (s.insert e)).trans ?_
    refine ((List.subperm_append_left _).2 (payloads_insert s e)).trans ?_
    exact List.perm_middle.subperm

theorem payloads_migrate (s : Scheduler α) (b : Backend) :
    (s.migrate b).payloads.Subperm s.payloads := by
  refine (payloads_foldl_insert s.drain (empty b)).trans ?_
  rw [payloads, toList_empty, List.map_nil, List.append_nil]
  exact ((perm_drain s).map _).subperm

theorem perm_foldl_insert (l : List (Event α)) (s : Scheduler α)
    (h : (l ++ s.toList).Pairwise fun x y => ¬ x.key.Same y.key) :
    (l.foldl insert s).toList.Perm (l ++ s.toList) := by
  induction l generalizing s with
  | nil => exact .refl _
  | cons e l ih =>
    rw [List.cons_append, List.pairwise_cons] at h
    have hadd : (s.insert e).toList.Perm (e :: s.toList) :=
      perm_insert fun x hx => h.1 x (List.mem_append_right l hx)
    have hmid : (l ++ (s.insert e).toList).Perm (e :: (l ++ s.toList)) :=
      (hadd.append_left l).trans List.perm_middle
    refine (ih (s.insert e) ?_).trans hmid
    refine (hmid.pairwise_iff fun hxy hyx => hxy hyx.symm).2 ?_
    exact List.pairwise_cons.2 h

theorem Distinct.perm {t : Scheduler α} (h : s.Distinct) (p : s.toList.Perm t.toList) :
    t.Distinct := (p.pairwise_iff fun hxy hyx => hxy hyx.symm).1 h

theorem perm_migrate (h : s.Distinct) (b : Backend) : (s.migrate b).toList.Perm s.toList := by
  have hd := perm_drain s
  have := perm_foldl_insert s.drain (empty b)
  rw [toList_empty, List.append_nil] at this
  exact (this ((hd.pairwise_iff fun hxy hyx => hxy hyx.symm).2 h)).trans hd

theorem Ordered.foldl_insert (o : s.Ordered) (l : List (Event α)) :
    (l.foldl Scheduler.insert s).Ordered := by
  induction l generalizing s with
  | nil => exact o
  | cons e l ih => exact ih (o.insert e)

theorem ordered_migrate (s : Scheduler α) (hb : b.isBuiltIn = true) : (s.migrate b).Ordered :=
  (ordered_empty hb).foldl_insert _

end Scheduler

end EventSim
