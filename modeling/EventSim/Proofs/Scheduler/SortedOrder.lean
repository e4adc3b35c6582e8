import EventSim.Proofs.KeyOrder
import EventSim.Scheduler.SortedList
import EventSim.Scheduler.SortedMap
import Mathlib.Data.List.Perm.Basic
import Mathlib.Data.List.Perm.Subperm

/-!
# The order of the sorted backends

The events of the ordered map come out strictly one after the other (`SortedMap.Ordered`); in the
sorted list several may share a key (`SortedList.Ordered`).  For both, the search for a key ends on
an event under it exactly if there is one, an insertion keeps the order, and what an operation
answers and what it leaves add up to what was there.  The one exception is the map: an event under a
key that is taken displaces the payload that was stored there, so only `payloads_place` speaks about
all insertions.
-/

namespace EventSim

/-- The first element that fits and the list without it are the list. -/
theorem perm_of_find? {β : Type} {q : β → Bool} {l : List β} {x : β} (h : l.find? q = some x) :
    l.Perm (x :: l.eraseP q) := by
  induction l with
  | nil => cases h
  | cons y l ih =>
    by_cases hy : q y = true
    · rw [List.find?_cons_of_pos hy] at h
      cases h
      rw [List.eraseP_cons_of_pos hy]
    · rw [List.find?_cons_of_neg hy] at h
      rw [List.eraseP_cons_of_neg hy]
      exact ((ih h).cons y).trans (.swap x y _)

namespace SortedMap

variable {α : Type} {l : List (Event α)} {e : Event α}

/-- Each event comes out before all that follow. -/
def Ordered (l : List (Event α)) : Prop := l.Pairwise fun x y => x.key.Before y.key

theorem perm_place (h : ∀ x ∈ l, ¬ e.key.Same x.key) : (place e l).Perm (e :: l) := by
  induction l with
  | nil => exact .refl _
  | cons x l ih =>
    rw [place]
    split
    · exact .refl _
    · rw [if_neg (h x (by simp))]
      exact ((ih fun y hy => h y (by simp [hy])).cons x).trans (.swap e x l)

/-- The keys after an insertion are the keys before it and perhaps the new one. -/
theorem key_of_mem_place {x : Event α} (hx : x ∈ place e l) :
    x.key = e.key ∨ ∃ y ∈ l, x.key = y.key := by
  induction l with
  | nil => simp_all [place]
  | cons y l ih =>
    rw [place] at hx
    split at hx
    · rcases List.mem_cons.1 hx with rfl | hx
      · exact .inl rfl
      · exact .inr ⟨x, hx, rfl⟩
    · split at hx
      · rcases List.mem_cons.1 hx with rfl | hx
        · exact .inr ⟨y, by simp, rfl⟩
        · exact .inr ⟨x, by simp [hx], rfl⟩
      · rcases List.mem_cons.1 hx with rfl | hx
        · exact .inr ⟨x, by simp, rfl⟩
        · rcases ih hx with hk | ⟨z, hz, hk⟩
          · exact .inl hk
          · exact .inr ⟨z, by simp [hz], hk⟩

theorem Ordered.place (o : Ordered l) (e : Event α) : Ordered (place e l) := by
  induction l with
  | nil => exact List.pairwise_singleton _ _
  | cons x l ih =>
    obtain ⟨hx, hl⟩ := List.pairwise_cons.1 o
    rw [SortedMap.place]
    split
    · rename_i hb
      refine List.pairwise_cons.2 ⟨fun y hy => ?_, o⟩
      rcases List.mem_cons.1 hy with rfl | hy
      · exact hb
      · exact hb.trans (hx y hy)
    · rename_i hb
      split
      · exact List.pairwise_cons.2 ⟨hx, hl⟩
      · rename_i hs
        refine List.pairwise_cons.2 ⟨fun y hy => ?_, ih hl⟩
        rcases key_of_mem_place hy with hk | ⟨z, hz, hk⟩
        · rw [hk]
          exact EventKey.before_of_not_before_of_not_same hb fun g => hs g.symm
        · rw [hk]
          exact hx z hz

/-- No payload comes from nowhere. -/
theorem payloads_place (e : Event α) (l : List (Event α)) :
    ((place e l).map Event.payload).Subperm (e.payload :: l.map Event.payload) := by
  induction l with
  | nil => exact .refl _
  | cons x l ih =>
    rw [place]
    split
    · exact .refl _
    · split
      · exact (List.subperm_cons _).2 (.cons_right _ (.refl _))
      · exact ((List.subperm_cons _).2 ih).trans (List.Perm.swap _ _ _).subperm

end SortedMap

namespace SortedList

variable {α : Type} {l : SortedList α} {key : EventKey} {i : Nat}

/-- No event comes out before one that precedes it. -/
def Ordered (l : List (Event α)) : Prop := l.Pairwise fun x y => ¬ y.key.Before x.key

/-! ### Search -/

theorem lastUnder?_some {l : List (Event α)} (h : lastUnder? l key = some i) :
    ∃ hi : i < l.length, l[i].key.Same key := by
  unfold lastUnder? at h
  obtain ⟨j, hj, rfl⟩ := Option.map_eq_some_iff.1 h
  obtain ⟨hlt, hs, -⟩ := List.findIdx?_eq_some_iff_getElem.1 hj
  rw [List.length_reverse] at hlt
  refine ⟨by omega, ?_⟩
  rw [List.getElem_reverse] at hs
  simpa using hs

theorem lastUnder?_none {l : List (Event α)} (h : lastUnder? l key = none) :
    ∀ x ∈ l, ¬ x.key.Same key := by
  unfold lastUnder? at h
  simpa using h

theorem find?_some (h : l.find? key = some i) :
    ∃ hi : i < l.events.length, l.events[i].key.Same key := by
  unfold find? at h
  split at h
  · rename_i j hj
    cases h
    obtain ⟨-, hs⟩ := Option.filter_eq_some_iff.1 hj
    cases hl : l.events[i]? with
    | none => simp [hl] at hs
    | some x =>
      obtain ⟨hi, rfl⟩ := List.getElem?_eq_some_iff.1 hl
      exact ⟨hi, by simpa [hl] using hs⟩
  · exact lastUnder?_some h

theorem find?_none (h : l.find? key = none) : ∀ x ∈ l.events, ¬ x.key.Same key := by
  unfold find? at h
  split at h
  · cases h
  · exact lastUnder?_none h

theorem place_le (l : SortedList α) (key : EventKey) : l.place key ≤ l.events.length := by
  unfold place
  split
  · rename_i i hf
    obtain ⟨hi, -⟩ := find?_some hf
    omega
  · exact List.findIdx_le_length

/-- The place of a key parts the events that are not after it from those that are not before. -/
theorem place_parts (o : Ordered l.events) (key : EventKey) (j : Nat)
    (hj : j < l.events.length) :
    (j < l.place key → ¬ key.Before l.events[j].key) ∧
      (l.place key ≤ j → ¬ l.events[j].key.Before key) := by
  unfold place
  split
  · rename_i i hf
    obtain ⟨hi, hs⟩ := find?_some hf
    rw [← hs.before_left, ← hs.before_right]
    refine ⟨fun h => List.pairwise_iff_getElem.1 o j i hj hi h, fun h => ?_⟩
    rcases Nat.eq_or_lt_of_le h with rfl | h
    · exact EventKey.before_irrefl _
    · exact List.pairwise_iff_getElem.1 o i j hi hj h
  · refine ⟨fun h => by simpa using List.not_of_lt_findIdx h, fun h => ?_⟩
    have hi : (l.events.findIdx fun x => decide (key.Before x.key)) < l.events.length := by omega
    have hb := List.findIdx_getElem (w := hi)
    rw [decide_eq_true_eq] at hb
    rcases Nat.eq_or_lt_of_le h with he | h
    · simp only [he] at hb
      exact hb.asymm
    · exact (hb.trans_not_before (List.pairwise_iff_getElem.1 o _ j hi hj h)).asymm

/-! ### The operations -/

@[simp] theorem events_makeRoom (l : SortedList α) : l.makeRoom.events = l.events := by
  unfold makeRoom
  split <;> rfl

theorem events_insert (l : SortedList α) (e : Event α) :
    (l.insert e).events = l.events.insertIdx (l.place e.key) e := by
  simp [insert]

theorem perm_insert (l : SortedList α) (e : Event α) :
    (l.insert e).events.Perm (e :: l.events) := by
  rw [events_insert]
  exact List.perm_insertIdx _ _ (place_le l e.key)

theorem Ordered.insertIdx {l : List (Event α)} {e : Event α} (o : Ordered l) (hi : i ≤ l.length)
    (h : ∀ j (hj : j < l.length),
      (j < i → ¬ e.key.Before l[j].key) ∧ (i ≤ j → ¬ l[j].key.Before e.key)) :
    Ordered (l.insertIdx i e) := by
  induction l generalizing i with
  | nil =>
    obtain rfl : i = 0 := by simpa using hi
    exact List.pairwise_singleton _ _
  | cons x l ih =>
    obtain ⟨hx, hl⟩ := List.pairwise_cons.1 o
    cases i with
    | zero =>
      refine List.pairwise_cons.2 ⟨fun y hy => ?_, o⟩
      obtain ⟨j, hj, rfl⟩ := List.getElem_of_mem hy
      exact (h j hj).2 (Nat.zero_le j)
    | succ i =>
      rw [List.length_cons] at hi
      rw [List.insertIdx_succ_cons]
      refine List.pairwise_cons.2 ⟨fun y hy => ?_, ih hl (by omega) fun j hj => ?_⟩
      · rcases (List.mem_insertIdx (by omega)).1 hy with rfl | hy
        · exact (h 0 (by simp)).1 (by omega)
        · exact hx y hy
      · have := h (j + 1) (by simpa using hj)
        exact ⟨fun g => this.1 (by omega), fun g => this.2 (by omega)⟩

theorem Ordered.insert (o : Ordered l.events) (e : Event α) : Ordered (l.insert e).events := by
  rw [events_insert]
  exact o.insertIdx (place_le l e.key) (place_parts o e.key)

theorem remove_none (hr : (l.remove key).1 = none) :
    (∀ x ∈ l.events, ¬ x.key.Same key) ∧ (l.remove key).2.events = l.events := by
  unfold remove at hr ⊢
  split
  · rename_i hf
    exact ⟨find?_none hf, rfl⟩
  · rename_i i hf
    obtain ⟨hi, -⟩ := find?_some hf
    simp [hf, List.getElem?_eq_getElem hi] at hr

theorem remove_some {e : Event α} (hr : (l.remove key).1 = some e) :
    e.key.Same key ∧ l.events.Perm (e :: (l.remove key).2.events) := by
  unfold remove at hr ⊢
  split
  · rename_i hf
    simp [hf] at hr
  · rename_i i hf
    obtain ⟨hi, hs⟩ := find?_some hf
    simp only [hf, List.getElem?_eq_getElem hi, Option.some.injEq] at hr
    subst hr
    exact ⟨hs, (List.getElem_cons_eraseIdx_perm hi).symm⟩

theorem sublist_remove (l : SortedList α) (key : EventKey) :
    (l.remove key).2.events.Sublist l.events := by
  unfold remove
  split
  · exact .refl _
  · exact List.eraseIdx_sublist _ _

end SortedList

end EventSim
