import EventSim.Scheduler.BinaryHeap
import EventSim.Scheduler.Pile
import EventSim.Scheduler.SortedList
import EventSim.Scheduler.SortedMap

/-! # Schedulers

A scheduler holds the pending events of a kernel and hands out the next one. Its view is `toList`:
the events inside, in the order in which they are given up when the scheduler itself goes. Every
operation dispatches on the backend; the ordered map, the heap and the sorted list are built in,
the piles are there to be registered beside them.
-/

namespace EventSim

/-- The kinds of schedulers. -/
inductive Backend where
  | map
  | heap
  | list
  | pile (preference : Preference) (sticky : Bool)
  deriving DecidableEq, Repr

namespace Backend

/-- The pile that hands events out in the order of their keys. -/
def scan : Backend := .pile .ascending false

/-- The pile that hands out the newest of the events due at one time. -/
def lifo : Backend := .pile .newestFirst false

/-- The pile that hands events out in order but gives none up to a removal. -/
def sticky : Backend := .pile .ascending true

/-- The pile that hands out the latest event first. -/
def reverse : Backend := .pile .backward false

/-- The name that a scheduler of this kind reports. -/
def name : Backend → String
  | .map => "map"
  | .heap => "heap"
  | .list => "list"
  | .pile _ true => "sticky"
  | .pile .ascending false => "scan"
  | .pile .newestFirst false => "lifo"
  | .pile .backward false => "reverse"

/-- The backends, one to a name. -/
def all : List Backend := [.map, .heap, .list, scan, lifo, sticky, reverse]

/-- The backend of a name. -/
def ofName? (name : String) : Option Backend := all.find? fun b => b.name == name

/-- The backends that a kernel may rely on. -/
def isBuiltIn : Backend → Bool
  | .map | .heap | .list => true
  | .pile .. => false

end Backend

/-- The pending events of a kernel. -/
inductive Scheduler (α : Type) where
  | map (events : SortedMap α)
  | heap (events : BinaryHeap α)
  | list (events : SortedList α)
  | pile (events : Pile α)

namespace Scheduler

variable {α : Type}

/-- A scheduler of the kind `b` without events. -/
def empty : Backend → Scheduler α
  | .map => .map .empty
  | .heap => .heap .empty
  | .list => .list .empty
  | .pile preference sticky => .pile ⟨preference, sticky, []⟩

/-- The kind of a scheduler. -/
def backend : Scheduler α → Backend
  | .map _ => .map
  | .heap _ => .heap
  | .list _ => .list
  | .pile q => .pile q.preference q.sticky

/-- The events inside. -/
def toList : Scheduler α → List (Event α)
  | .map m => m.events
  | .heap h => h.entries.toList
  | .list l => l.events
  | .pile q => q.events

/-- The number of events inside. -/
def size (s : Scheduler α) : Nat := s.toList.length

/-- No event is inside. -/
def isEmpty (s : Scheduler α) : Bool := s.toList.isEmpty

/-- The scheduler with `e`. -/
def insert (s : Scheduler α) (e : Event α) : Scheduler α :=
  match s with
  | .map m => .map (m.insert e)
  | .heap h => .heap (h.insert e)
  | .list l => .list (l.insert e)
  | .pile q => .pile (q.insert e)

/-- The stored event whose payload `insert s e` gives up. -/
def displaced (s : Scheduler α) (e : Event α) : Option (Event α) :=
  match s with
  | .map m => m.displaced e
  | .heap _ | .list _ | .pile _ => none

/-- The key of the next event. -/
def peek : Scheduler α → Option EventKey
  | .map m => m.peek
  | .heap h => h.peek
  | .list l => l.peek
  | .pile q => q.peek

/-- The next event and the scheduler without it. -/
def pop : Scheduler α → Option (Event α × Scheduler α)
  | .map m => m.pop.map fun r => (r.1, .map r.2)
  | .heap h => h.pop.map fun r => (r.1, .heap r.2)
  | .list l => l.pop.map fun r => (r.1, .list r.2)
  | .pile q => q.pop.map fun r => (r.1, .pile r.2)

/-- An event under `key`, whatever its context, and the scheduler without it. -/
def remove (s : Scheduler α) (key : EventKey) : Option (Event α) × Scheduler α :=
  match s with
  | .map m => let r := m.remove key; (r.1, .map r.2)
  | .heap h => let r := h.remove key; (r.1, .heap r.2)
  | .list l => let r := l.remove key; (r.1, .list r.2)
  | .pile q => let r := q.remove key; (r.1, .pile r.2)

/-- The next `n` events, in the order in which they come out, and the scheduler without them. -/
def popMany (s : Scheduler α) : Nat → List (Event α) × Scheduler α
  | 0 => ([], s)
  | n + 1 =>
    match s.pop with
    | none => ([], s)
    | some (e, rest) =>
      let r := rest.popMany n
      (e :: r.1, r.2)

/-- All events, in the order in which they come out. -/
def drain (s : Scheduler α) : List (Event α) := (s.popMany s.size).1

/-- The events of `s` moved one by one into a scheduler of the kind `b`. -/
def migrate (s : Scheduler α) (b : Backend) : Scheduler α := s.drain.foldl insert (empty b)

end Scheduler

end EventSim
