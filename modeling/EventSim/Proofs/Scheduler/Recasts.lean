import EventSim.Proofs.Scheduler.Trims

/-!
# Schedulers whose payloads are recast

`Scheduler.recast f` changes every payload where it lies, by a function of the number of its event
and of the payload itself.  A scheduler looks at keys alone, so recasting commutes with everything
that it does: `insert_recast`, `pop_recast`, `remove_recast` and `migrate_recast` are equations,
down to the layout of each backend.
-/

namespace EventSim

variable {α β : Type} {f : Nat → α → β}

/-- The event with its payload changed according to its number. -/
def Event.recast (f : Nat → α → β) (e : Event α) : Event β := ⟨e.key, f e.key.uid e.payload⟩

@[simp] theorem Event.key_recast (f : Nat → α → β) (e : Event α) : (e.recast f).key = e.key := rfl

/-! ### The ordered map -/

theorem SortedMap.place_recast (e : Event α) (l : List (Event α)) :
    place (e.recast f) (l.map (Event.recast f)) = (place e l).map (Event.recast f) := by
  induction l with
  | nil => rfl
  | cons x l ih =>
    simp only [List.map_cons, place, Event.key_recast]
    by_cases hb : e.key.Before x.key
    · simp only [hb, if_true, List.map_cons]
    · by_cases hs : e.key.Same x.key
      · -- the displaced event has the same number
        simp only [hb, hs, if_true, if_false, List.map_cons, Event.recast, hs.2]
      · simp only [hb, hs, if_false, List.map_cons, ih]

/-! ### The heap -/

namespace BinaryHeap

theorem map_swap {ρ σ : Type} (g : ρ → σ) (a : Array ρ) {i j : Nat} (hi : i < a.size)
    (hj : j < a.size) :
    (a.map g).swap i j (by simpa using hi) (by simpa using hj) =
      (a.swap i j hi hj).map g := by
  refine Array.ext (by simp) fun k hk hk' => ?_
  simp only [Array.getElem_swap, Array.getElem_map]
  split
  · rfl
  · split <;> rfl

theorem map_swapIfInBounds {ρ σ : Type} (g : ρ → σ) (a : Array ρ) (i j : Nat) :
    (a.map g).swapIfInBounds i j = (a.swapIfInBounds i j).map g := by
  simp only [Array.swapIfInBounds_def, Array.size_map]
  split
  · split
    · exact map_swap g a _ _
    · rfl
  · rfl

theorem siftUp_recast (a : Array (Event α)) (i : Nat) :
    siftUp (a.map (Event.recast f)) i = (siftUp a i).map (Event.recast f) := by
  fun_induction siftUp a i with
  | case1 a i h hp hb ih =>
    rw [siftUp, dif_pos (by simpa using h)]
    simp only [Array.getElem_map, Event.key_recast, hb, if_true]
    rw [← ih, map_swap]
  | case2 a i h hp hb =>
    rw [siftUp, dif_pos (by simpa using h)]
    simp only [Array.getElem_map, Event.key_recast, hb, if_false]
  | case3 a i h => rw [siftUp, dif_neg (by simpa using h)]

theorem firstChild_recast (a : Array (Event α)) (i : Nat) :
    firstChild (a.map (Event.recast f)) i = firstChild a i := by
  simp only [firstChild, Array.size_map, Array.getElem_map, Event.key_recast]

theorem siftDown_of_none {a : Array (Event α)} {i : Nat} (h : firstChild a i = none) :
    siftDown a i = a := by
  unfold siftDown
  split
  · rfl
  · rename_i c hc
    cases h.symm.trans hc

theorem siftDown_of_some {a : Array (Event α)} {i c : Nat} (h : firstChild a i = some c)
    (hi : i < a.size) (hc : c < a.size) :
    siftDown a i = if a[c].key.Before a[i].key then siftDown (a.swap i c hi hc) c else a := by
  rw [siftDown]
  split
  · rename_i hn
    cases h.symm.trans hn
  · rename_i d hd
    cases h.symm.trans hd
    rfl

theorem siftDown_recast (a : Array (Event α)) (i : Nat) :
    siftDown (a.map (Event.recast f)) i = (siftDown a i).map (Event.recast f) := by
  fun_induction siftDown a i with
  | case1 a i h => exact siftDown_of_none ((firstChild_recast a i).trans h)
  | case2 a i c h hc hi hb ih =>
    rw [siftDown_of_some ((firstChild_recast a i).trans h) (by simpa using hi)
      (by simpa using hc.2)]
    simp only [Array.getElem_map, Event.key_recast, hb, if_true]
    rw [← ih, map_swap]
  | case3 a i c h hc hi hb =>
    rw [siftDown_of_some ((firstChild_recast a i).trans h) (by simpa using hi)
      (by simpa using hc.2)]
    simp only [Array.getElem_map, Event.key_recast, hb, if_false]

theorem sink_of_none {a : Array (Event α)} {i : Nat} (h : firstChild a i = none) :
    sink a i = (a, i) := by
  unfold sink
  split
  · rfl
  · rename_i c hc
    cases h.symm.trans hc

theorem sink_of_some {a : Array (Event α)} {i c : Nat} (h : firstChild a i = some c)
    (hi : i < a.size) (hc : c < a.size) : sink a i = sink (a.swap i c hi hc) c := by
  rw [sink]
  split
  · rename_i hn
    cases h.symm.trans hn
  · rename_i d hd
    cases h.symm.trans hd
    rfl

theorem sink_recast (a : Array (Event α)) (i : Nat) :
    sink (a.map (Event.recast f)) i = ((sink a i).1.map (Event.recast f), (sink a i).2) := by
  fun_induction sink a i with
  | case1 a i h => exact sink_of_none ((firstChild_recast a i).trans h)
  | case2 a i c h hc ih =>
    rw [sink_of_some ((firstChild_recast a i).trans h) (by simpa using Nat.lt_trans hc.1 hc.2)
      (by simpa using hc.2), ← ih, map_swap]

theorem heapify_recast (a : Array (Event α)) (n : Nat) :
    heapify (a.map (Event.recast f)) n = (heapify a n).map (Event.recast f) := by
  induction n generalizing a with
  | zero => rfl
  | succ n ih => rw [heapify, heapify, siftDown_recast, ih]

theorem ofArray_recast (a : Array (Event α)) :
    ofArray (a.map (Event.recast f)) = ⟨(ofArray a).entries.map (Event.recast f)⟩ := by
  rw [ofArray, Array.size_map, heapify_recast, ofArray]

end BinaryHeap

/-! ### The sorted list -/

namespace SortedList

/-- The list with its payloads changed. -/
def recast (f : Nat → α → β) (l : SortedList α) : SortedList β :=
  ⟨l.events.map (Event.recast f), l.capacity, l.head⟩

theorem find?_recast (l : SortedList α) (key : EventKey) :
    (l.recast f).find? key = l.find? key := by
  have hunder : lastUnder? (l.events.map (Event.recast f)) key = lastUnder? l.events key := by
    simp only [lastUnder?, ← List.map_reverse, List.findIdx?_map, List.length_map]
    rfl
  have hcell (i : Nat) : ((l.events.map (Event.recast f))[i]?.any fun x => x.key.Same key) =
      l.events[i]?.any fun x => x.key.Same key := by
    rw [List.getElem?_map, Option.any_map]
    rfl
  simp only [find?, firstCell?, recast, List.length_map, hunder, hcell]

theorem place_recast (l : SortedList α) (key : EventKey) :
    (l.recast f).place key = l.place key := by
  have hidx : ((l.recast f).events.findIdx fun x => key.Before x.key) =
      l.events.findIdx fun x => key.Before x.key := List.findIdx_map ..
  rw [place, place, find?_recast, hidx]

theorem makeRoom_recast (l : SortedList α) : (l.recast f).makeRoom = l.makeRoom.recast f := by
  simp only [makeRoom, recast, List.length_map]
  split <;> rfl

end SortedList

/-! ### The pile -/

theorem Pile.select_recast (p : Preference) (l : List (Event α)) :
    select p (l.map (Event.recast f)) =
      (select p l).map fun r => (r.1.recast f, r.2.map (Event.recast f)) := by
  induction l with
  | nil => rfl
  | cons e l ih =>
    rw [List.map_cons, select, select, ih]
    cases select p l with
    | none => rfl
    | some r =>
      simp only [Option.map_some, Event.key_recast]
      by_cases hp : p.Puts r.1.key e.key
      · simp only [hp, if_true, Option.map_some, List.map_cons]
      · simp only [hp, if_false, Option.map_some]

/-! ### Schedulers -/

namespace Scheduler

/-- The scheduler with its payloads changed, all events where they are. -/
def recast (f : Nat → α → β) : Scheduler α → Scheduler β
  | .map m => .map ⟨m.events.map (Event.recast f)⟩
  | .heap h => .heap ⟨h.entries.map (Event.recast f)⟩
  | .list l => .list (l.recast f)
  | .pile q => .pile ⟨q.preference, q.sticky, q.events.map (Event.recast f)⟩

@[simp] theorem toList_recast (f : Nat → α → β) (s : Scheduler α) :
    (s.recast f).toList = s.toList.map (Event.recast f) := by
  cases s with
  | heap h => exact Array.toList_map
  | _ => rfl

@[simp] theorem recast_empty (f : Nat → α → β) (b : Backend) : (empty b).recast f = empty b := by
  cases b with
  | heap => simp [empty, recast, BinaryHeap.empty]
  | _ => rfl

/-- A scheduler whose payloads stay as they are stays as it is. -/
theorem recast_eq_self {f : Nat → α → α} {s : Scheduler α}
    (h : ∀ e ∈ s.toList, f e.key.uid e.payload = e.payload) : s.recast f = s := by
  have hevents : s.toList.map (Event.recast f) = s.toList := by
    refine (List.map_congr_left fun e he => ?_).trans (List.map_id _)
    rw [Event.recast, h e he]
    rfl
  cases s with
  | map m => exact congrArg (fun l => Scheduler.map ⟨l⟩) hevents
  | heap q =>
    have harray : q.entries.map (Event.recast f) = q.entries :=
      Array.toList_inj.1 (Array.toList_map.trans hevents)
    exact congrArg (fun a => Scheduler.heap ⟨a⟩) harray
  | list l => exact congrArg (fun e => Scheduler.list ⟨e, l.capacity, l.head⟩) hevents
  | pile q => exact congrArg (fun l => Scheduler.pile ⟨q.preference, q.sticky, l⟩) hevents

theorem insert_recast (s : Scheduler α) (e : Event α) :
    (s.recast f).insert (e.recast f) = (s.insert e).recast f := by
  cases s with
  | map m => simp only [recast, insert, SortedMap.insert, SortedMap.place_recast]
  | heap h =>
    simp only [recast, insert, BinaryHeap.insert, Array.size_map, ← Array.map_push,
      BinaryHeap.siftUp_recast]
  | list l =>
    simp only [recast, insert, SortedList.insert, SortedList.place_recast,
      SortedList.makeRoom_recast, Event.key_recast]
    simp only [SortedList.recast, List.map_insertIdx, List.length_map]
  | pile q => simp only [recast, insert, Pile.insert, List.map_append, List.map_cons, List.map_nil]

theorem pop_recast (s : Scheduler α) :
    (s.recast f).pop = s.pop.map fun r => (r.1.recast f, r.2.recast f) := by
  cases s with
  | map m =>
    obtain ⟨_ | ⟨e, l⟩⟩ := m <;> rfl
  | heap h =>
    simp only [recast, pop, BinaryHeap.pop, Array.back?_map]
    cases h.entries.back? with
    | none => rfl
    | some last =>
      simp only [Option.map_some, ← Array.map_pop, Array.getElem?_map]
      cases h.entries.pop[0]? with
      | none => rfl
      | some root =>
        simp only [Option.map_some, ← Array.map_setIfInBounds, BinaryHeap.sink_recast,
          BinaryHeap.siftUp_recast]
  | list l =>
    obtain ⟨_ | ⟨e, l⟩, capacity, head⟩ := l <;> rfl
  | pile q =>
    simp only [recast, pop, Pile.pop, Pile.select_recast, Option.map_map]
    rfl

theorem remove_recast (s : Scheduler α) (key : EventKey) :
    (s.recast f).remove key =
      ((s.remove key).1.map (Event.recast f), (s.remove key).2.recast f) := by
  have hcomp : (fun x : Event β => decide (x.key.Same key)) ∘ Event.recast f =
      fun x : Event α => decide (x.key.Same key) := rfl
  cases s with
  | map m => simp only [recast, remove, SortedMap.remove, List.find?_map, List.eraseP_map, hcomp]
  | heap h =>
    simp only [recast, remove, BinaryHeap.remove, Array.findIdx?_map, hcomp]
    cases h.entries.findIdx? fun x => decide (x.key.Same key) with
    | none => simp only [BinaryHeap.ofArray_recast, Option.map_none]
    | some i =>
      simp only [Array.getElem?_map, Array.size_map, BinaryHeap.map_swapIfInBounds,
        ← Array.map_pop, BinaryHeap.ofArray_recast]
  | list l =>
    simp only [recast, remove, SortedList.remove, SortedList.find?_recast]
    cases l.find? key with
    | none => rfl
    | some i =>
      simp only [SortedList.recast, List.getElem?_map, List.eraseIdx_map, List.length_map]
  | pile q =>
    simp only [recast, remove, Pile.remove]
    split
    · rfl
    · simp only [List.find?_map, List.eraseP_map, hcomp]

theorem popMany_recast (s : Scheduler α) (n : Nat) :
    (s.recast f).popMany n = ((s.popMany n).1.map (Event.recast f), (s.popMany n).2.recast f) := by
  induction n generalizing s with
  | zero => rfl
  | succ n ih =>
    rw [popMany, popMany, pop_recast]
    cases s.pop with
    | none => rfl
    | some r => simp only [Option.map_some, ih, List.map_cons]

theorem migrate_recast (s : Scheduler α) (b : Backend) :
    (s.recast f).migrate b = (s.migrate b).recast f := by
  have hdrain : (s.recast f).drain = s.drain.map (Event.recast f) := by
    rw [drain, size, toList_recast, List.length_map, popMany_recast]
    rfl
  have hfold (l : List (Event α)) (t : Scheduler α) :
      (l.map (Event.recast f)).foldl insert (t.recast f) = (l.foldl insert t).recast f := by
    induction l generalizing t with
    | nil => rfl
    | cons e l ih => rw [List.map_cons, List.foldl_cons, insert_recast, ih, List.foldl_cons]
  rw [migrate, hdrain, ← recast_empty f b, hfold]
  rfl

end Scheduler

end EventSim
