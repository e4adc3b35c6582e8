import EventSim.Proofs.History.Handles
import EventSim.Proofs.Machine.Releases

/-!
# Accounts over the life of a kernel

`Permitted.accounts` says what becomes of every event that a kernel has accepted in any lawful
history, with its calls out of actions and its panics: **it stands in the books, was invoked or was
given up, in one of the three places and once**, and what was invoked or given up stays so.  The
record can be trusted: what it tells is what the session does with the actions.

A scheduling call that reaches the kernel is accepted or gives its action up before it returns.  An
event that was withdrawn while its handle was live is never invoked, and a destruction that comes to
its end leaves nothing in the books.
-/

namespace EventSim

namespace History

open Machine

variable {environment : Option String} {l l' : List Move} {id : KernelId} {k k₀ : Kernel Action}
  {x : Move} {newer older : List Move}

theorem Permitted.accounted (hl : Permitted Command.Lawful environment l)
    (hk : (after environment l).world.kernel? id = some k) :
    k.Accounted (record environment id l) :=
  hl.keeps hk (Kernel.accounted_fresh id) fun s _ he hI => hI.effect s he

/-- What was invoked or given up stays so. -/
theorem suffix_of_suffix (hs : l <:+ l') :
    invokedIn (record environment id l) <:+ invokedIn (record environment id l') ∧
      givenUpIn (record environment id l) <:+ givenUpIn (record environment id l') := by
  obtain ⟨more, hr⟩ := record_suffix environment id hs
  rw [← hr, Kernel.invokedIn_append, Kernel.givenUpIn_append]
  exact ⟨List.suffix_append _ _, List.suffix_append _ _⟩

/-- The scheduling calls of a move that reach a kernel are settled by it. -/
theorem Permitted.settled {q : Request} (hl : Permitted Command.Lawful environment older)
    (hq : q ∈ (after environment older).requests x) (hr : q.Reaches id) : q.SettledBy id := by
  unfold requests at hq
  cases ho : (after environment older).onset? x with
  | none =>
    rw [ho] at hq
    cases hq
  | some p =>
    obtain ⟨w, c⟩ := p
    rw [ho] at hq
    exact Request.settled_of_mem (hl.reached.sound.aside (aside_onset ho)) hq hr

/-- An event that was withdrawn while its handle was live is doomed. -/
theorem Permitted.doomed {h : Handle} (hl : Permitted Command.Lawful environment (x :: older))
    (hk₀ : (after environment older).world.kernel? id = some k₀)
    (hr : (after environment older).Revokes x id h) (hlive : k₀.isExpired h = false)
    (hk : (after environment (x :: older)).world.Has id k) :
    k.Doomed (record environment id (x :: older)) h.uid := by
  obtain ⟨lost, hnotes⟩ := hr.notes hk₀ (Kernel.isExpired_eq_false.1 hlive).1
  have habout : notesAbout id ((after environment older).notes x) = [.withdrawn h lost] := by
    rw [hnotes]
    simp [notesAbout]
  obtain ⟨k₁, hk₁, hu⟩ := (hl.2.reached.lives hl.1).undergoes hk
  rw [habout, hk₁.eq_of_kernel? hk₀] at hu
  rw [record, habout]
  exact hu.doomed (hl.2.sound hk₀) hlive (record environment id older)

/-- An event that was withdrawn while its handle was live has not been invoked since. -/
theorem Permitted.not_invoked {h : Handle} (hl : Permitted Command.Lawful environment l)
    (hk : (after environment l).world.kernel? id = some k) (hs : l = newer ++ x :: older)
    (hk₀ : (after environment older).world.kernel? id = some k₀)
    (hr : (after environment older).Revokes x id h) (hlive : k₀.isExpired h = false) :
    h.uid ∉ (invokedIn (record environment id l)).map Item.uid := by
  have hsuffix : x :: older <:+ l := ⟨newer, hs.symm⟩
  refine (hl.accounted hk).not_invoked (hl.sound hk) ?_
  exact hl.keeps_since (I := fun k r => k.Doomed r h.uid) hsuffix hk
    (fun k₁ hk₁ => (hl.suffix hsuffix).doomed hk₀ hr hlive hk₁)
    fun s _ he hd => Kernel.Doomed.effect s he hd

/-- A destruction that has just come to its end has left nothing in the books. -/
theorem Permitted.items_of_destroyed {rest : List Frame}
    (hl : Permitted Command.Lawful environment (.step :: older))
    (hk : (after environment (.step :: older)).world.kernel? id = some k)
    (hs : (after environment older).stack = .destroying id :: rest)
    (hlen : (after environment (.step :: older)).stack.length ≤ rest.length)
    (hp : ¬ (after environment (.step :: older)).Panicked) : k.items = [] := by
  obtain ⟨lost, hn⟩ := notes_of_destroyed hs hk hlen hp
  refine (hl.accounted hk).swept lost (record environment id older) ?_
  exact record_of_turn (hn ▸ List.mem_singleton_self _) trivial

/-- **Every event that a kernel has accepted stands in its books, was invoked or was given up, in
one of the three places and once.** -/
theorem Permitted.accounts (hl : Permitted Command.Lawful environment l)
    (hk : (after environment l).world.kernel? id = some k) :
    (k.items ++ (invokedIn (record environment id l) ++ givenUpIn (record environment id l))).Perm
        (acceptedIn (record environment id l)) ∧
    ((acceptedIn (record environment id l)).map Item.uid).Nodup ∧
    (∀ l', l <:+ l' →
      invokedIn (record environment id l) <:+ invokedIn (record environment id l') ∧
      givenUpIn (record environment id l) <:+ givenUpIn (record environment id l')) ∧
    (∀ newer x older, l = newer ++ x :: older →
      (after environment older).Honest x ∧
      (∀ q ∈ (after environment older).requests x, q.Reaches id → q.SettledBy id) ∧
      ∀ k₀ h, (after environment older).world.kernel? id = some k₀ →
        (after environment older).Revokes x id h → k₀.isExpired h = false →
        h.uid ∉ (invokedIn (record environment id l)).map Item.uid) ∧
    (∀ older rest, l = .step :: older → (after environment older).stack = .destroying id :: rest →
      (after environment l).stack.length ≤ rest.length → ¬ (after environment l).Panicked →
      k.items = []) ∧
    k.executed = (startedIn (record environment id l)).length := by
  have ha := hl.accounted hk
  refine ⟨ha.balance, ha.distinct, fun l' hs => suffix_of_suffix hs, fun newer x older hs => ?_, ?_,
    (hl.dated hk).executed⟩
  · have hx : Permitted Command.Lawful environment (x :: older) := hl.suffix ⟨newer, hs.symm⟩
    exact ⟨hx.1.honest, fun q hq hr => hx.2.settled hq hr,
      fun k₀ h hk₀ hr hlive => hl.not_invoked hk hs hk₀ hr hlive⟩
  · rintro older rest rfl hs hlen hp
    exact hl.items_of_destroyed hk hs hlen hp

/-- Two events and a teardown event are accepted and one is refused.  The second is cancelled, the
first has run, and the second has just been skipped. -/
def mixedRun : List Move :=
  let t : Target := .kernel (.numbered 0)
  .replicate 3 .step ++ [.call (.run t),
    .call (.cancel t (.numbered 2)),
    .call (.schedule t (.after (.clamp (-1))) (.numbered 4) (.silent [])),
    .call (.schedule t .atTeardown (.numbered 3) (.silent [])),
    .call (.schedule t (.after (.clamp 2)) (.numbered 2) (.silent [])),
    .call (.schedule t (.after (.clamp 1)) (.numbered 1) (.silent [])),
    .call (.build none (.builtIn 0))]

theorem permitted_mixedRun : Permitted Command.Lawful none mixedRun := by
  simp only [mixedRun, List.replicate, List.cons_append, List.nil_append, Permitted, Allows]
  refine ⟨trivial, trivial, trivial, ⟨rfl, ?_⟩, ⟨rfl, ?_⟩, ⟨rfl, ?_⟩, ⟨rfl, ?_⟩, ⟨rfl, ?_⟩,
    ⟨rfl, ?_⟩, ⟨rfl, ?_⟩, trivial⟩
  all_goals simp [Command.All, Action.silent, Action.All, allOf, Command.Lawful]

/-- One event stands in the books, one was invoked and one given up. -/
theorem accounts_mixedRun : ∃ k, (after none mixedRun).world.kernel? 0 = some k ∧
    k.items.map Item.uid = [3] ∧ (invokedIn (record none 0 mixedRun)).map Item.uid = [1] ∧
    (givenUpIn (record none 0 mixedRun)).map Item.uid = [2] ∧
    (acceptedIn (record none 0 mixedRun)).map Item.uid = [3, 2, 1] ∧
    (k.items ++ (invokedIn (record none 0 mixedRun) ++ givenUpIn (record none 0 mixedRun))).Perm
      (acceptedIn (record none 0 mixedRun)) ∧
    k.executed = (startedIn (record none 0 mixedRun)).length := by
  obtain ⟨k, hk, hitems⟩ : ∃ k, (after none mixedRun).world.kernel? 0 = some k ∧
      k.items.map Item.uid = [3] := ⟨_, rfl, rfl⟩
  obtain ⟨hbalance, -, -, -, -, hexecuted⟩ := permitted_mixedRun.accounts hk
  exact ⟨k, hk, hitems, rfl, rfl, rfl, hbalance,
    hexecuted⟩

end History

end EventSim
