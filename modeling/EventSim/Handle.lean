import EventSim.Key

/-! # Event handles

Scheduling answers a handle: a lookup key that names the kernel that issued it and the event's
key, never the event itself. Kernels are told apart by their identity, so a handle of another
kernel is recognised as foreign. The handle `Handle.none` belongs to no kernel.
-/

namespace EventSim

/-- The identity of a kernel: its number among all kernels made so far. -/
abbrev KernelId := Nat

/-- Whether a handle stands for an event on the clock or one that runs at teardown. -/
inductive EventKind where
  | timed
  | teardown
  deriving DecidableEq, Repr

/-- A name for a scheduled event, of use to the kernel that issued it alone. -/
structure Handle where
  owner : Option KernelId
  time : Time
  context : Context
  uid : Nat
  kind : EventKind
  deriving DecidableEq

namespace Handle

/-- The handle that no kernel issues. -/
def none : Handle := ⟨.none, .zero, 0, 0, .timed⟩

/-- The handle of the timed event that `owner` stored under `key`. -/
def ofKey (owner : Option KernelId) (key : EventKey) : Handle :=
  ⟨owner, key.time, key.context, key.uid, .timed⟩

/-- The handle of a teardown event registered at `issued`. -/
def ofTeardown (owner : Option KernelId) (issued : Time) (uid : Nat) : Handle :=
  ⟨owner, issued, noContext, uid, .teardown⟩

/-- The key under which a scheduler holds the event. -/
def key (h : Handle) : EventKey := ⟨h.time, h.uid, h.context⟩

/-- The number and the time of the event, or the word that stands for teardown. -/
def text (h : Handle) : String :=
  match h.kind with
  | .timed => "E#" ++ toString h.uid ++ "@" ++ h.time.text
  | .teardown => "E#" ++ toString h.uid ++ "@destroy"

end Handle

end EventSim
