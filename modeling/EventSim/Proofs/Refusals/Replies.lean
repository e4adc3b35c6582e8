import EventSim.Proofs.Refusals.Machines
import EventSim.Proofs.Refusals.Places
import EventSim.Proofs.Sessions.Interruption

/-!
# What a story tells of each call

`repliesIn` reads the reply to the call at a place off the whole story.  A chapter tells of an open
place, and the place is closed from then on, so no other chapter tells of it: **the replies tell of
every call how it ends**, `World.heeded`.  Of events that have not started they tell nothing.
-/

namespace EventSim

/-- The story tells of calls at such places only. -/
def Tells (story : List Chapter) (p : Origin → Nat → Prop) : Prop :=
  ∀ x ∈ story, ∀ o n, x.replyAt o n ≠ none → p o n

variable {S : List Chapter} {x : Chapter} {T : Replies} {p q : Origin → Nat → Prop} {o : Origin}
  {k n : Nat}

theorem Tells.mono (h : Tells S p) (hpq : ∀ o n, p o n → q o n) : Tells S q :=
  fun x hx o n hn => hpq o n (h x hx o n hn)

/-- Of other places the story tells nothing. -/
theorem Tells.repliesIn_eq_none (h : Tells S p) (hn : ¬ p o n) : repliesIn S o n = none :=
  List.findSome?_eq_none_iff.2 fun x hx => by
    by_contra hne
    exact hn (h x hx o n hne)

/-- If the chapter tells of the end of a call, the replies tell the same of its place. -/
def Chapter.ToldBy (T : Replies) (x : Chapter) : Prop :=
  ∀ o c left reply, x.incident = some (.ended o c left reply) → T o left.length = reply.toOption

theorem repliesIn_cons (x : Chapter) (S : List Chapter) (o : Origin) (n : Nat) :
    repliesIn (x :: S) o n = (x.replyAt o n).or (repliesIn S o n) := by
  rw [repliesIn, List.findSome?_cons]
  cases x.replyAt o n <;> rfl

theorem Chapter.replyAt_ended {told : List Entry} {c : Command} {left : List Command}
    {reply : Except Panic Reply} :
    Chapter.replyAt ⟨some (.ended o c left reply), told⟩ o left.length = reply.toOption :=
  if_pos ⟨rfl, rfl⟩

namespace Machine

variable {m : Machine} {events : List (KernelId × Nat)}

/-- A chapter tells of the call that its step makes, if of any. -/
theorem call_of_replyAt (h : (m.chapter events).replyAt o n ≠ none) :
    ∃ reporting c left rest, m.stack = .body reporting (c :: left) :: rest ∧
      o = events.head? ∧ n = left.length := by
  obtain ⟨c, left, reply, hi, hn⟩ := Chapter.ended_of_replyAt h
  obtain ⟨reporting, rest, hs, -, ho, -⟩ := incident?_eq_ended hi
  exact ⟨reporting, c, left, rest, hs, ho, hn⟩

/-- It tells how the call ends, unless actions are to run first. -/
theorem replyAt_chapter {reporting : Bool} {c : Command} {left : List Command} {rest : List Frame}
    (hs : m.stack = .body reporting (c :: left) :: rest) :
    (m.chapter events).replyAt events.head? left.length =
      if c.drives then none else (m.world.perform c).1.toOption := by
  rw [chapter, incident?, hs]
  dsimp only
  split
  · rfl
  · exact Chapter.replyAt_ended

/-- The place of a call is open before the call. -/
theorem open_of_call (hp : m.Placed events) {reporting : Bool} {c : Command} {left : List Command}
    {rest : List Frame} (hs : m.stack = .body reporting (c :: left) :: rest) :
    m.Open events k events.head? left.length := by
  have hhoused := hp.housed
  rw [hs] at hhoused
  cases events with
  | nil => exact absurd hhoused (Nat.not_succ_le_zero _)
  | cons event events =>
    refine .inr ⟨event, left.length + 1, rfl, ?_, Nat.lt_succ_self _⟩
    rw [hs]
    exact List.mem_cons_self

/-- **A call closes its place.** -/
theorem not_open_of_call (hp : m.Placed events) {reporting : Bool} {c : Command}
    {left : List Command} {rest : List Frame}
    (hs : m.stack = .body reporting (c :: left) :: rest) :
    ¬ m.step.Open (m.events events) k events.head? left.length := by
  obtain ⟨w, stack, result⟩ := m
  cases hs
  have hhoused := hp.housed
  have hc := courses_step ⟨w, .body reporting (c :: left) :: rest, result⟩
  rw [events_of_call]
  cases events with
  | nil => exact absurd hhoused (Nat.not_succ_le_zero _)
  | cons event events =>
    rintro (h | ⟨event', left', he, hz, hn⟩)
    · exact h (hc.spent hp.tallied (hp.spent event List.mem_cons_self))
    · cases he
      have hl : (Machine.step ⟨w, .body reporting (c :: left) :: rest, result⟩).Leaves
          (left.length :: lefts rest) := leaves_start c
      rcases List.mem_cons.1 (hl.mem_zip hz) with he | hz
      · cases he
        exact Nat.lt_irrefl _ hn
      · exact (List.nodup_cons.1 hp.distinct).1 (List.of_mem_zip hz).1

/-- **The story of a call tells of places that are open.** -/
theorem tells_story {i : Nat} (hp : m.Placed events)
    (hR : Tells R ((m.steps i).world.Open k)) :
    Tells (m.story i events ++ R) (m.Open events k) := by
  induction i generalizing m events with
  | zero => exact hR.mono fun _ _ => .inl
  | succ i ih =>
    rw [story]
    rw [Machine.steps] at hR
    split
    · rename_i hs
      rw [if_pos hs] at hR
      exact hR.mono fun _ _ => .inl
    · rename_i hs
      rw [if_neg hs] at hR
      rintro x hx o n hn
      rcases List.mem_cons.1 hx with rfl | hx
      · obtain ⟨reporting, c, left, rest, hstack, rfl, rfl⟩ := call_of_replyAt hn
        exact open_of_call hp hstack
      · exact (ih hp.step hR x hx o n hn).of_step hp

/-- The replies tell of each call in these steps how it ends. -/
def Heeded (T : Replies) : Nat → Machine → List (KernelId × Nat) → Prop
  | 0, _, _ => True
  | i + 1, m, events =>
    m.stack.isEmpty = true ∨ (m.Heeds T events ∧ Heeded T i m.step (m.events events))

/-- **Who reads the story of a call knows how the calls in it end**, and reads on in what follows
the story. -/
theorem heeded {i : Nat} (hp : m.Placed events) (hR : Tells R ((m.steps i).world.Open k))
    (hT : ∀ o n, m.Open events k o n → T o n = repliesIn (m.story i events ++ R) o n) :
    m.Heeded T i events ∧ ∀ o n, (m.steps i).world.Open k o n → T o n = repliesIn R o n := by
  induction i generalizing m events with
  | zero => exact ⟨trivial, fun o n ho => hT o n (.inl ho)⟩
  | succ i ih =>
    rw [Machine.steps] at hR ⊢
    rw [story] at hT
    rw [Heeded]
    by_cases hs : m.stack.isEmpty = true
    · rw [if_pos hs] at hR hT ⊢
      exact ⟨.inl hs, fun o n ho => hT o n (.inl ho)⟩
    · rw [if_neg hs] at hR hT ⊢
      rw [List.cons_append] at hT
      have htells := tells_story hp.step hR
      obtain ⟨hrest, hafter⟩ := ih hp.step hR fun o n ho => by
        rw [hT o n (ho.of_step hp), repliesIn_cons]
        have hnone : (m.chapter events).replyAt o n = none := by
          by_contra hne
          obtain ⟨reporting, c, left, rest, hstack, rfl, rfl⟩ := call_of_replyAt hne
          exact not_open_of_call hp hstack ho
        rw [hnone, Option.none_or]
      refine ⟨.inr ⟨fun reporting c left rest hstack => ?_, hrest⟩, hafter⟩
      rw [hT _ _ (open_of_call hp hstack), repliesIn_cons, replyAt_chapter hstack,
        htells.repliesIn_eq_none (not_open_of_call hp hstack), Option.or_none]

/-- The replies tell of each call in the story how it has ended. -/
theorem Heeded.tellsOf {i : Nat} (h : m.Heeded T i events) :
    ∀ x ∈ m.story i events, x.ToldBy T := by
  induction i generalizing m events with
  | zero => exact fun x hx => (List.not_mem_nil hx).elim
  | succ i ih =>
    rw [story]
    split
    · exact fun x hx => (List.not_mem_nil hx).elim
    · rename_i hs
      obtain ⟨hheeds, hrest⟩ := h.resolve_left hs
      refine List.forall_mem_cons.2 ⟨fun o c left reply hi => ?_, ih hrest⟩
      obtain ⟨reporting, rest, hstack, hd, rfl, rfl⟩ := incident?_eq_ended hi
      rw [hheeds reporting c left rest hstack, hd]
      rfl

/-- A call from outside starts without an action on the stack. -/
theorem placed_ofCall {w : World} (t : w.Tallied) (c : Command) : (ofCall w c).Placed [] := by
  have hl : (ofCall w c).Leaves (lefts []) := leaves_start c
  exact ⟨(courses_ofCall w c).tallied t, List.nodup_nil, fun _ he => (List.not_mem_nil he).elim,
    hl.le (Nat.le_refl _)⟩

theorem open_of_ofCall {w : World} (t : w.Tallied) {c : Command}
    (h : (ofCall w c).Open [] k o n) : w.Open k o n := by
  rcases h with h | ⟨event, left, -, hz, -⟩
  · exact (courses_ofCall w c).isOpen t h
  · exact absurd hz List.not_mem_nil

end Machine

namespace World

variable {w : World} {c : Command} {rest P : List Command}

theorem courses_call (w : World) (c : Command) : Courses (fun _ _ => True) w (w.call c).2 :=
  (Machine.courses_ofCall w c).trans (Machine.courses_steps _ _)

theorem place_of_ending (h : (w.ending c rest).replyAt o n ≠ none) :
    o = none ∧ n = rest.length := by
  obtain ⟨c', left, reply, hi, hn⟩ := Chapter.ended_of_replyAt h
  cases hi
  exact ⟨rfl, hn⟩

theorem courses_after (w : World) (P : List Command) :
    Courses (fun _ _ => True) w (w.after P) := by
  induction P generalizing w with
  | nil => exact .of_engines rfl
  | cons c rest ih => exact (courses_call w c).trans (ih (w.call c).2)

/-- After a call from outside the story goes on with the end of the call. -/
theorem tells_ending {S : List Chapter} (h : Tells S ((w.call c).2.Open rest.length)) :
    Tells (w.ending c rest :: S) ((w.call c).2.Open (rest.length + 1)) := by
  intro x hx o n hn
  rcases List.mem_cons.1 hx with rfl | hx
  · obtain ⟨rfl, rfl⟩ := place_of_ending hn
    exact Nat.lt_succ_self _
  · exact (h x hx o n hn).mono (Nat.le_succ _)

/-- **The story of a program tells of places that are open.** -/
theorem tells_story (t : w.Tallied) : Tells (w.story P) (w.Open P.length) := by
  induction P generalizing w with
  | nil => exact fun x hx => (List.not_mem_nil hx).elim
  | cons c rest ih =>
    have hrest := tells_ending (ih ((courses_call w c).tallied t))
    exact (Machine.tells_story (Machine.placed_ofCall t c) hrest).mono
      fun _ _ => Machine.open_of_ofCall t

/-- The replies tell of each call of a program how it ends. -/
def Heeded (T : Replies) : World → List Command → Prop
  | _, [] => True
  | w, c :: rest =>
    (Machine.ofCall w c).Heeded T (Machine.ofCall w c).weight [] ∧
      T none rest.length = (w.call c).1.toOption ∧ Heeded T (w.call c).2 rest

/-- **Who reads the story of a program knows how all calls end**, and nothing of events that never
start. -/
theorem heeded (t : w.Tallied)
    (hT : ∀ o n, w.Open P.length o n → T o n = repliesIn (w.story P) o n) :
    w.Heeded T P ∧ ∀ o n, (w.after P).Open 0 o n → T o n = none := by
  induction P generalizing w with
  | nil => exact ⟨trivial, hT⟩
  | cons c rest ih =>
    have htallied := (courses_call w c).tallied t
    have htells := tells_story (P := rest) htallied
    obtain ⟨hcall, hend⟩ := Machine.heeded (Machine.placed_ofCall t c) (tells_ending htells)
      fun o n ho => hT o n (Machine.open_of_ofCall t ho)
    obtain ⟨hrest, hafter⟩ := ih htallied fun o n ho => by
      rw [hend o n (ho.mono (Nat.le_succ _)), repliesIn_cons]
      have hnone : (w.ending c rest).replyAt o n = none := by
        by_contra hne
        obtain ⟨rfl, rfl⟩ := place_of_ending hne
        exact Nat.lt_irrefl _ ho
      rw [hnone, Option.none_or]
    refine ⟨⟨hcall, ?_, hrest⟩, hafter⟩
    rw [hend none rest.length (Nat.lt_succ_self _), repliesIn_cons,
      htells.repliesIn_eq_none (Nat.lt_irrefl _), Option.or_none]
    exact Chapter.replyAt_ended

/-- The replies tell of each call in the story how it has ended. -/
theorem Heeded.tellsOf (h : w.Heeded T P) : ∀ x ∈ w.story P, x.ToldBy T := by
  induction P generalizing w with
  | nil => exact fun x hx => (List.not_mem_nil hx).elim
  | cons c rest ih =>
    obtain ⟨hcall, hreply, hrest⟩ := h
    intro x hx
    rcases List.mem_append.1 hx with hx | hx
    · exact Machine.Heeded.tellsOf hcall x hx
    · rcases List.mem_cons.1 hx with rfl | hx
      · intro o c' left reply hi
        cases hi
        exact hreply
      · exact ih hrest x hx

end World

end EventSim
