import EventSim.Key

/-! # The binary heap

Events in an array in which no event comes out before its parent, the parent of position `i` being
`(i - 1) / 2`. A dequeued root is replaced by the last event, which first sinks to the bottom along
the smaller children and then rises to its place. Several events may share a key; of two children
under one key the right one is preferred.
-/

namespace EventSim

/-- Events in an array, each child after its parent. -/
structure BinaryHeap (α : Type) where
  entries : Array (Event α)

namespace BinaryHeap

variable {α : Type}

/-- The event at position `i` exchanged with its ancestors until it is not before its parent. -/
def siftUp (a : Array (Event α)) (i : Nat) : Array (Event α) :=
  if h : 0 < i ∧ i < a.size then
    have hp : (i - 1) / 2 < a.size := by omega
    if a[i].key.Before a[(i - 1) / 2].key then
      siftUp (a.swap i ((i - 1) / 2) h.2 hp) ((i - 1) / 2)
    else a
  else a
termination_by i
decreasing_by omega

/-- The position of the child of `i` that comes out first. -/
def firstChild (a : Array (Event α)) (i : Nat) : Option Nat :=
  if h : 2 * i + 2 < a.size then
    if a[2 * i + 1].key.Before a[2 * i + 2].key then some (2 * i + 1) else some (2 * i + 2)
  else if 2 * i + 1 < a.size then some (2 * i + 1)
  else none

theorem firstChild_bounds {a : Array (Event α)} {i c : Nat} (h : firstChild a i = some c) :
    i < c ∧ c < a.size := by
  unfold firstChild at h
  split at h
  · split at h <;> cases h <;> omega
  · split at h
    · cases h; omega
    · cases h

/-- The event at position `i` exchanged with its first child while that one is before it. -/
def siftDown (a : Array (Event α)) (i : Nat) : Array (Event α) :=
  match h : firstChild a i with
  | none => a
  | some c =>
    have hc := firstChild_bounds h
    have hi : i < a.size := by omega
    if a[c].key.Before a[i].key then siftDown (a.swap i c hi hc.2) c else a
termination_by a.size - i
decreasing_by simp only [Array.size_swap]; omega

/-- The event at position `i` exchanged with its first child down to the bottom, and the position
where it ends. -/
def sink (a : Array (Event α)) (i : Nat) : Array (Event α) × Nat :=
  match h : firstChild a i with
  | none => (a, i)
  | some c =>
    have hc := firstChild_bounds h
    sink (a.swap i c (by omega) hc.2) c
termination_by a.size - i
decreasing_by simp only [Array.size_swap]; omega

/-- The events before position `n` sifted down, the last of them first. -/
def heapify (a : Array (Event α)) : Nat → Array (Event α)
  | 0 => a
  | n + 1 => heapify (siftDown a n) n

/-- The heap of the events of an array. -/
def ofArray (a : Array (Event α)) : BinaryHeap α := ⟨heapify a (a.size / 2)⟩

/-- The heap without events. -/
def empty : BinaryHeap α := ⟨#[]⟩

/-- The heap with `e`. -/
def insert (h : BinaryHeap α) (e : Event α) : BinaryHeap α :=
  ⟨siftUp (h.entries.push e) h.entries.size⟩

/-- The key at the root. -/
def peek (h : BinaryHeap α) : Option EventKey := h.entries[0]?.map Event.key

/-- The event at the root and the heap without it. -/
def pop (h : BinaryHeap α) : Option (Event α × BinaryHeap α) :=
  match h.entries.back? with
  | none => none
  | some last =>
    let rest := h.entries.pop
    match rest[0]? with
    | none => some (last, ⟨rest⟩)
    | some root =>
      let sunk := sink (rest.setIfInBounds 0 last) 0
      some (root, ⟨siftUp sunk.1 sunk.2⟩)

/-- The first event of the array under `key`, and the heap of the others, in which the last event
takes the place that became free. -/
def remove (h : BinaryHeap α) (key : EventKey) : Option (Event α) × BinaryHeap α :=
  match h.entries.findIdx? fun x => x.key.Same key with
  | none => (none, ofArray h.entries)
  | some i => (h.entries[i]?, ofArray (h.entries.swapIfInBounds i (h.entries.size - 1)).pop)

end BinaryHeap

end EventSim
