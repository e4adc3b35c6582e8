import EventSim.Key

/-! # The sorted list

Events in ascending order, several to a key if need be. They lie in a ring of cells: the first
event in the cell `head`, the next ones in the cells after it, and behind the last cell comes the
first one. A new event makes room by moving the shorter side of the list by one cell, the earlier
events if both are the same, and a ring without free cells is doubled.

The ring shows in one thing only. A search for a key looks at the event in the first cell before all
others, if that is not the first event; so of several events under the key it ends on that one, and
otherwise on the last. A new event goes right before the event on which the search ends, and a
removal takes that one out.
-/

namespace EventSim

/-- Events in ascending order in a ring of `capacity` cells. -/
structure SortedList (α : Type) where
  events : List (Event α)
  capacity : Nat
  /-- The cell of the first event. -/
  head : Nat

namespace SortedList

variable {α : Type}

/-- The list without events, and without cells. -/
def empty : SortedList α := ⟨[], 0, 0⟩

/-! ### Search -/

/-- The position of the event in the first cell, if other events come before it. -/
def firstCell? (l : SortedList α) : Option Nat :=
  if l.capacity < l.head + l.events.length then some (l.capacity - l.head) else none

/-- The position of the last event under a key. -/
def lastUnder? (l : List (Event α)) (key : EventKey) : Option Nat :=
  (l.reverse.findIdx? fun x => x.key.Same key).map fun i => l.length - 1 - i

/-- The position on which the search for a key ends, if an event is under it. -/
def find? (l : SortedList α) (key : EventKey) : Option Nat :=
  match l.firstCell?.filter fun i => l.events[i]?.any fun x => x.key.Same key with
  | some i => some i
  | none => lastUnder? l.events key

/-- The position at which an event with the key belongs. -/
def place (l : SortedList α) (key : EventKey) : Nat :=
  match l.find? key with
  | some i => i
  | none => l.events.findIdx fun x => key.Before x.key

/-! ### Operations -/

/-- The list with a free cell: a full ring is doubled, and the shorter of its two ends is moved. -/
def makeRoom (l : SortedList α) : SortedList α :=
  if l.events.length < l.capacity then l
  else
    { l with
      capacity := max 4 (2 * l.capacity)
      head := if l.head < l.capacity - l.head then l.head else l.capacity + l.head }

/-- The list with `e`. -/
def insert (l : SortedList α) (e : Event α) : SortedList α :=
  let i := l.place e.key
  let l := l.makeRoom
  { l with
    events := l.events.insertIdx i e
    head := if l.events.length - i < i then l.head else (l.head + l.capacity - 1) % l.capacity }

/-- The key of the first event. -/
def peek (l : SortedList α) : Option EventKey := l.events.head?.map Event.key

/-- The first event and the list without it. -/
def pop (l : SortedList α) : Option (Event α × SortedList α) :=
  match l.events with
  | [] => none
  | e :: rest => some (e, { l with events := rest, head := (l.head + 1) % l.capacity })

/-- The event on which the search for `key` ends and the list without it. -/
def remove (l : SortedList α) (key : EventKey) : Option (Event α) × SortedList α :=
  match l.find? key with
  | none => (none, l)
  | some i =>
    (l.events[i]?,
      { l with
        events := l.events.eraseIdx i
        head :=
          if l.events.length - i - 1 < i then l.head else (l.head + 1) % l.capacity })

end SortedList

end EventSim
