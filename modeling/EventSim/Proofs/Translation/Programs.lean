import EventSim.Proofs.Machine.Bookkeeping

/-!
# Programs in another manner

A program can be said in another manner: addressed to other targets, with removals in place of
cancellations, or without requests to stop.  `Command.translate` says a command and all that it
carries in a manner, `translateAll` a list of commands.

A program is `Directed` to some targets if it calls these and nothing else, attaches built-in
backends only and puts no handle together.
-/

namespace EventSim

/-- How a program is said. -/
structure Manner where
  target : Target → Target
  /-- Events are removed where they would be cancelled. -/
  eager : Bool
  /-- Nobody asks a run loop to stop: a scheduled stop becomes an event that does nothing. -/
  unstopped : Bool

mutual

/-- The command in a manner. -/
def Command.translate (μ : Manner) : Command → Command
  | .schedule t timing name a => .schedule (μ.target t) timing name (a.translate μ)
  | .scheduleEach t delays name a => .scheduleEach (μ.target t) delays name (a.translate μ)
  | .chain t tag delay length name => .chain (μ.target t) tag delay length name
  | .stopAfter t delay name =>
    if μ.unstopped then .schedule (μ.target t) (.after delay) name (.silent [])
    else .stopAfter (μ.target t) delay name
  | .cancel t name => if μ.eager then .remove (μ.target t) name else .cancel (μ.target t) name
  | .remove t name => .remove (μ.target t) name
  | .isExpired t name => .isExpired (μ.target t) name
  | .delayLeft t name => .delayLeft (μ.target t) name
  | .run t => .run (μ.target t)
  | .stop t => if μ.unstopped then .idle else .stop (μ.target t)
  | .destroy t => .destroy (μ.target t)
  | .attach t b => .attach (μ.target t) b
  | .query t q => .query (μ.target t) q
  | c => c

/-- The action in a manner. -/
def Action.translate (μ : Manner) : Action → Action
  | .mk tag reporting target body => .mk tag reporting (μ.target target) (translateAll μ body)

/-- The commands in a manner. -/
def translateAll (μ : Manner) : List Command → List Command
  | [] => []
  | c :: rest => c.translate μ :: translateAll μ rest

end

/-- The payload in a manner. -/
def Payload.translate (μ : Manner) : Payload Action → Payload Action
  | .halt => if μ.unstopped then .act (.silent []) else .halt
  | .act a => .act (a.translate μ)

variable {μ : Manner}

/-! ### What is left as it was -/

namespace Action

@[simp] theorem tag_translate (a : Action) : (a.translate μ).tag = a.tag := by
  cases a
  rw [translate]
  rfl

@[simp] theorem reporting_translate (a : Action) : (a.translate μ).reporting = a.reporting := by
  cases a
  rw [translate]
  rfl

@[simp] theorem target_translate (a : Action) : (a.translate μ).target = μ.target a.target := by
  cases a
  rw [translate]
  rfl

@[simp] theorem body_translate (a : Action) : (a.translate μ).body = translateAll μ a.body := by
  cases a
  rw [translate]
  rfl

theorem translate_numbered (a : Action) (i : Nat) :
    (a.numbered i).translate μ = (a.translate μ).numbered i := by
  cases a
  simp only [translate, numbered, tag, reporting, target, body]

end Action

theorem translate_link (t : Target) (tag : String) (delay : Time) (left : Nat)
    (name : HandleName) :
    (World.link t tag delay left name).translate μ =
      World.link (μ.target t) tag delay left name := by
  simp only [World.link, Action.translate, translateAll, Command.translate]

/-! ### Programs that call some targets only -/

variable {T : Target → Prop}

/-- Who is asked for the present when the action starts, if anyone is, is one of the targets. -/
def Action.Minds (T : Target → Prop) (a : Action) : Prop := a.tag = none ∨ T a.target

/-- The command calls one of the targets, or does not call anything. -/
def Command.Directed (T : Target → Prop) : Command → Prop
  | .schedule t _ _ a | .scheduleEach t _ _ a => T t ∧ a.Minds T
  | .chain t .. | .stopAfter t .. | .cancel t _ | .remove t _ | .isExpired t _ | .delayLeft t _
  | .run t | .stop t | .destroy t | .query t _ => T t
  | .attach t b => T t ∧ b.isBuiltIn = true
  | .idle | .inspect _ | .same .. | .panic _ => True
  | _ => False

/-- The action and all that it carries call the targets only. -/
def Action.Directed (T : Target → Prop) (a : Action) : Prop :=
  a.Minds T ∧ a.All (Command.Directed T)

theorem Command.Directed.lawful {c : Command} (h : c.Directed T) : c.Lawful := by
  cases c with
  | attach t b => exact h.2
  | registry call => exact h.elim
  | forge => exact h
  | _ => trivial

theorem Action.minds_numbered {a : Action} (i : Nat) (h : a.Minds T) : (a.numbered i).Minds T := by
  rcases h with h | h
  · left
    show a.tag.map _ = none
    rw [h]
    rfl
  · exact .inr h

/-- What a program puts into a kernel calls what the program calls. -/
theorem Command.All.directed {c : Command} {a : Action} (h : c.All (Command.Directed T))
    (hc : c.Carries a) : a.Directed T := by
  refine ⟨?_, h.carries hc⟩
  have hself := h.self
  cases c with
  | schedule t timing name b =>
    cases hc
    exact hself.2
  | scheduleEach t delays name b =>
    obtain ⟨i, rfl⟩ := hc
    exact Action.minds_numbered i hself.2
  | chain t tag delay length name =>
    cases length with
    | zero => exact hc.elim
    | succ left =>
      cases hc
      exact .inr hself
  | _ => exact hc.elim

end EventSim
