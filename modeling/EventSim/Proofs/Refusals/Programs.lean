import EventSim.Proofs.Refusals.KernelCalls

/-!
# Programs without the calls that were refused

A call is found by its place: the event whose action makes it, or none if it comes from outside, and
the number of calls that follow it there.  `Replies` tells of every place how the call there ended,
if it was carried out and came to an end.

`purgedAll T` takes the calls out of a program that were refused according to `T`, at top level and
inside actions.  The action of a scheduling call is found by the handle that answered the call: it
names the event that carries the action out.  An action whose event never runs is left as it is.
-/

namespace EventSim

/-- The event whose action makes a call, named by its kernel and its number; none for a call from
outside. -/
abbrev Origin := Option (KernelId × Nat)

/-- How the call ended that an origin makes with so many calls to follow. -/
abbrev Replies := Origin → Nat → Option Reply

/-- The event of the handle that a call has answered. -/
def Reply.event? : Option Reply → Option (KernelId × Nat)
  | some (.handle h) => h.owner.map fun id => (id, h.uid)
  | _ => none

mutual

/-- The command, which has ended in a reply, without the refused calls in its action. -/
def Command.purged (T : Replies) (reply : Option Reply) : Command → Command
  | .schedule t timing name a =>
    .schedule t timing name
      (match Reply.event? reply with
      | some event => a.purged T event
      | none => a)
  | c => c

/-- The action without the refused calls, carried out by an event. -/
def Action.purged (T : Replies) (event : KernelId × Nat) : Action → Action
  | .mk tag reporting target body => .mk tag reporting target (purgedAll T (some event) body)

/-- The commands without those that were refused, in their actions too. -/
def purgedAll (T : Replies) (origin : Origin) : List Command → List Command
  | [] => []
  | c :: rest =>
    match T origin rest.length with
    | some (.refused _) => purgedAll T origin rest
    | reply => c.purged T reply :: purgedAll T origin rest

end

variable {T : Replies} {origin : Origin} {event : KernelId × Nat} {c : Command}
  {rest : List Command} {reply : Option Reply}

/-! ### What is left as it was -/

namespace Action

@[simp] theorem tag_purged (a : Action) : (a.purged T event).tag = a.tag := by
  cases a
  rw [purged]
  rfl

@[simp] theorem reporting_purged (a : Action) : (a.purged T event).reporting = a.reporting := by
  cases a
  rw [purged]
  rfl

@[simp] theorem target_purged (a : Action) : (a.purged T event).target = a.target := by
  cases a
  rw [purged]
  rfl

@[simp] theorem body_purged (a : Action) :
    (a.purged T event).body = purgedAll T (some event) a.body := by
  cases a
  rw [purged, body, body]

end Action

namespace Command

theorem purged_of_none (c : Command) (h : Reply.event? reply = none) : c.purged T reply = c := by
  cases c with
  | schedule t timing name a => rw [purged, h]
  | _ => rfl

@[simp] theorem name_purged (c : Command) (reply : Option Reply) :
    (c.purged T reply).name = c.name := by
  cases c <;> rfl

@[simp] theorem settles_purged (c : Command) (reply : Option Reply) :
    (c.purged T reply).settles = c.settles := by
  rw [settles, settles, name_purged]

@[simp] theorem drives_purged (c : Command) (reply : Option Reply) :
    (c.purged T reply).drives = c.drives := by
  cases c <;> rfl

end Command

/-! ### One command after the other -/

theorem purgedAll_of_refused {e : SimError} (h : T origin rest.length = some (.refused e)) :
    purgedAll T origin (c :: rest) = purgedAll T origin rest := by
  rw [purgedAll, h]

theorem purgedAll_of_kept (h : ∀ e, T origin rest.length ≠ some (.refused e)) :
    purgedAll T origin (c :: rest) =
      c.purged T (T origin rest.length) :: purgedAll T origin rest := by
  rw [purgedAll]
  split
  · rename_i e he
    exact absurd he (h e)
  · rfl

/-- Commands that nobody has carried out are left as they are. -/
theorem purgedAll_of_none (h : ∀ n, T origin n = none) (l : List Command) :
    purgedAll T origin l = l := by
  induction l with
  | nil => rw [purgedAll]
  | cons c rest ih =>
    rw [purgedAll_of_kept (by simp [h]), h, c.purged_of_none rfl, ih]

theorem Action.purged_of_none (h : ∀ n, T (some event) n = none) (a : Action) :
    a.purged T event = a := by
  cases a
  rw [purged, purgedAll_of_none h]

/-! ### Calls that may be refused -/

/-- The command is a call that a kernel may refuse. -/
def Command.Refusable : Command → Prop
  | .schedule _ (.after _) .. | .schedule _ (.under ..) .. | .stopAfter .. | .delayLeft .. => True
  | _ => False

/-- The action that a scheduling call brings along. -/
def Command.action? : Command → Option Action
  | .schedule _ _ _ a => some a
  | _ => none

end EventSim
