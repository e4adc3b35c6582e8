import EventSim.Time

/-! # Event keys

An event is stored under a key: the time at which it fires, the number under which its kernel
counted it, and the context it runs in. Keys are ordered by time and then by number, so events due
at one time come out in the order of their scheduling. The context rides along: it takes no part
in the order, and two keys that differ in it alone are `Same`.
-/

namespace EventSim

/-- The simulated entity on whose behalf an event runs. -/
abbrev Context := UInt32

/-- The context outside of any event. -/
def noContext : Context := 4294967295

/-- The place of an event in the order of a simulation. -/
structure EventKey where
  time : Time
  uid : Nat
  context : Context
  deriving DecidableEq

namespace EventKey

/-- `a` comes out before `b`. -/
def Before (a b : EventKey) : Prop :=
  a.time < b.time ∨ a.time = b.time ∧ a.uid < b.uid

/-- `a` and `b` name the same place in the order. -/
def Same (a b : EventKey) : Prop := a.time = b.time ∧ a.uid = b.uid

instance (a b : EventKey) : Decidable (a.Before b) :=
  inferInstanceAs (Decidable (_ ∨ _ ∧ _))

instance (a b : EventKey) : Decidable (a.Same b) := inferInstanceAs (Decidable (_ ∧ _))

/-- The order of two keys as one of three answers. -/
def order (a b : EventKey) : Ordering :=
  if a.Before b then .lt else if a.Same b then .eq else .gt

/-- The later of two keys, the second of two that are the same. -/
def later (a b : EventKey) : EventKey := if b.Before a then a else b

/-- The earlier of two keys, the first of two that are the same. -/
def earlier (a b : EventKey) : EventKey := if b.Before a then b else a

end EventKey

/-- A pending event: its key and what is to be done. -/
structure Event (α : Type) where
  key : EventKey
  payload : α

end EventSim
