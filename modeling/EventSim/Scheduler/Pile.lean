import EventSim.Key

/-! # The unsorted pile

Events in the order of their arrival; each request for the next one searches them all for the
event that its `Preference` puts first. A preference need not follow the order of the keys: with
`backward` a pile hands out the latest time first, which no kernel tolerates. A `sticky` pile
never gives an event up to a removal.
-/

namespace EventSim

/-- Which of two pending events a pile hands out first. -/
inductive Preference where
  /-- The earlier time, and of one time the lower number. -/
  | ascending
  /-- The earlier time, and of one time the higher number. -/
  | newestFirst
  /-- The later time, and of one time the lower number. -/
  | backward
  deriving DecidableEq, Repr

/-- `a` is handed out before `b`. -/
def Preference.Puts (p : Preference) (a b : EventKey) : Prop :=
  match p with
  | .ascending => a.Before b
  | .newestFirst => a.time < b.time ∨ a.time = b.time ∧ b.uid < a.uid
  | .backward => b.time < a.time ∨ a.time = b.time ∧ a.uid < b.uid

instance (p : Preference) (a b : EventKey) : Decidable (p.Puts a b) :=
  match p with
  | .ascending => inferInstanceAs (Decidable (a.Before b))
  | .newestFirst => inferInstanceAs (Decidable (_ ∨ _ ∧ _))
  | .backward => inferInstanceAs (Decidable (_ ∨ _ ∧ _))

/-- Events in the order of their arrival. -/
structure Pile (α : Type) where
  preference : Preference
  sticky : Bool
  events : List (Event α)

namespace Pile

variable {α : Type}

/-- The event that `p` puts first and the others, in their order. -/
def select (p : Preference) : List (Event α) → Option (Event α × List (Event α))
  | [] => none
  | e :: rest =>
    match select p rest with
    | none => some (e, rest)
    | some (first, others) =>
      if p.Puts first.key e.key then some (first, e :: others) else some (e, rest)

/-- The pile with `e`. -/
def insert (q : Pile α) (e : Event α) : Pile α := { q with events := q.events ++ [e] }

/-- The event that is next and the pile without it. -/
def pop (q : Pile α) : Option (Event α × Pile α) :=
  (select q.preference q.events).map fun r => (r.1, { q with events := r.2 })

/-- The key of the event that is next. -/
def peek (q : Pile α) : Option EventKey := q.pop.map fun r => r.1.key

/-- The oldest event under `key` and the pile without it, unless the pile is sticky. -/
def remove (q : Pile α) (key : EventKey) : Option (Event α) × Pile α :=
  if q.sticky then (none, q)
  else
    (q.events.find? fun x => x.key.Same key,
      { q with events := q.events.eraseP fun x => x.key.Same key })

end Pile

end EventSim
