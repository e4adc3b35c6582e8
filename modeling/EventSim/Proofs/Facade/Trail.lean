import EventSim.Proofs.Facade.Moves

/-!
# Trails

What a teardown does depends on what has happened since it began, so the state alone does not tell
whether it goes well.  A `Trail` is the list of all states that a session has gone through, the
newest first; it grows by calls from outside and by steps.

`Trail.turns` says that each state comes from the one before by one of the moves of `Turns`, and
that only commands of the program start.
-/

namespace EventSim

/-- The states of a session with commands that satisfy `p`, the newest first. -/
inductive Trail (p : Command → Prop) : List Machine → Prop
  | pristine (environment : Option String) : Trail p [⟨.pristine environment, [], none⟩]
  | call {m : Machine} {older : List Machine} {c : Command} :
      Trail p (m :: older) → m.stack = [] → c.All p →
      Trail p (.ofCall m.world c :: m :: older)
  | step {m : Machine} {older : List Machine} :
      Trail p (m :: older) → Trail p (m.step :: m :: older)

/-- The trail after `n` more steps. -/
def follow : Nat → List Machine → List Machine
  | n + 1, m :: older => follow n (m.step :: m :: older)
  | _, t => t

/-- A command that starts is one that was carried. -/
theorem Machine.Carries.starts {p : Command → Prop} {m : Machine} {c : Command} (h : m.Carries p)
    (hc : m.Starts c) : p c := by
  unfold Machine.Starts at hc
  split at hc
  · rename_i hs
    have hf := h.waiting _ (hs ▸ List.mem_cons_self)
    exact hc ▸ (hf _ List.mem_cons_self).self
  · rename_i hs
    have hf := h.waiting _ (hs ▸ List.mem_cons_self)
    exact hc ▸ (hf _ List.mem_cons_self).self
  · exact hc.elim

namespace Trail

variable {p : Command → Prop} {m n : Machine} {older t t' : List Machine}

theorem ne_nil (h : Trail p t) : t ≠ [] := by
  cases h <;> exact List.cons_ne_nil _ _

/-- A session starts outside of any call. -/
theorem stack_of_singleton (h : Trail p [m]) : m.stack = [] := by
  cases h
  rfl

theorem tail (h : Trail p (n :: m :: older)) : Trail p (m :: older) := by
  cases h with
  | call hm => exact hm
  | step hm => exact hm

/-- An earlier part of a trail is a trail. -/
theorem suffix (h : Trail p t) (hs : (m :: older) <:+ t) : Trail p (m :: older) := by
  induction h with
  | pristine environment =>
    rcases List.suffix_cons_iff.1 hs with hs | hs
    · rw [hs]
      exact .pristine environment
    · cases List.suffix_nil.1 hs
  | call hm he hc ih =>
    rcases List.suffix_cons_iff.1 hs with hs | hs
    · rw [hs]
      exact .call hm he hc
    · exact ih hs
  | step hm ih =>
    rcases List.suffix_cons_iff.1 hs with hs | hs
    · rw [hs]
      exact .step hm
    · exact ih hs

theorem follow (h : Trail p t) (n : Nat) : Trail p (follow n t) := by
  induction n generalizing t with
  | zero => exact h
  | succ n ih =>
    obtain ⟨m, older, rfl⟩ := List.exists_cons_of_ne_nil h.ne_nil
    exact ih h.step

theorem carries (hp : ∀ c, c.Staged → p c) (h : Trail p (m :: older)) : m.Carries p := by
  generalize ht : m :: older = t at h
  induction h generalizing m older with
  | pristine environment =>
    cases ht
    exact ⟨fun _ _ _ hk => (by cases hk), fun _ hf => by cases hf⟩
  | call hm he hc ih =>
    cases ht
    exact .ofCall (ih rfl).stored hc
  | step hm ih =>
    cases ht
    exact (ih rfl).step hp

/-- **Each state of a trail comes from the one before by a known move.** -/
theorem turns (hp : ∀ c, c.Staged → p c) (h : Trail p (n :: m :: older)) :
    Turns p m.world (marks m.stack) n := by
  have hm := h.tail.carries hp
  cases h with
  | @call _ _ c ht he hc =>
    rw [he]
    refine (Machine.turns_call m.world c).mono ?_
    rintro _ rfl
    exact hc.self
  | step ht => exact (Machine.turns_step m).mono fun c => hm.starts

/-- What holds at the start and is kept by every move holds of every trail. -/
theorem moves (hp : ∀ c, c.Staged → p c) {I : List Machine → Prop}
    (hpristine : ∀ environment, I [⟨.pristine environment, [], none⟩])
    (hmove : ∀ n m older, Trail p (n :: m :: older) → Turns p m.world (marks m.stack) n →
      I (m :: older) → I (n :: m :: older)) (h : Trail p t) : I t := by
  induction h with
  | pristine environment => exact hpristine environment
  | call hm he hc ih =>
    have h := Trail.call hm he hc
    exact hmove _ _ _ h (h.turns hp) ih
  | step hm ih =>
    have h := Trail.step hm
    exact hmove _ _ _ h (h.turns hp) ih

end Trail

end EventSim
