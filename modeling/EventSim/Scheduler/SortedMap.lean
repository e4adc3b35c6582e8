import EventSim.Key

/-! # The ordered map

Events in ascending order with one event to a key: an event inserted under a key that is taken
displaces the payload and leaves the stored key as it is. This is the backend that a kernel starts
with.
-/

namespace EventSim

/-- Events in ascending order of keys that are all different. -/
structure SortedMap (α : Type) where
  events : List (Event α)

namespace SortedMap

variable {α : Type}

/-- `e` put at its place among `events`. -/
def place (e : Event α) : List (Event α) → List (Event α)
  | [] => [e]
  | x :: rest =>
    if e.key.Before x.key then e :: x :: rest
    else if e.key.Same x.key then ⟨x.key, e.payload⟩ :: rest
    else x :: place e rest

/-- The map without events. -/
def empty : SortedMap α := ⟨[]⟩

/-- The map with `e`. -/
def insert (m : SortedMap α) (e : Event α) : SortedMap α := ⟨place e m.events⟩

/-- The event whose payload `insert m e` displaces. -/
def displaced (m : SortedMap α) (e : Event α) : Option (Event α) :=
  m.events.find? fun x => x.key.Same e.key

/-- The key of the first event. -/
def peek (m : SortedMap α) : Option EventKey := m.events.head?.map Event.key

/-- The first event and the map without it. -/
def pop (m : SortedMap α) : Option (Event α × SortedMap α) :=
  match m.events with
  | [] => none
  | e :: rest => some (e, ⟨rest⟩)

/-- The event under `key` and the map without it. -/
def remove (m : SortedMap α) (key : EventKey) : Option (Event α) × SortedMap α :=
  (m.events.find? fun x => x.key.Same key, ⟨m.events.eraseP fun x => x.key.Same key⟩)

end SortedMap

end EventSim
