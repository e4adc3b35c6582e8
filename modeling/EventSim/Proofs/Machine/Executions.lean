import EventSim.Proofs.Machine.Stacks
import EventSim.Proofs.World.Contexts

/-!
# Timed events that are being carried out

An event that starts is carried out as long as something stands above the frame of its run loop.  An
action may run its kernel once more; when this nested run loop ends, the events that are being
carried out are `interrupted`, for the end of a run loop resets the context.

`Machine.advance` follows the executions of a kernel over a move, and `Attuned.make` says that **the
executions stay in tune with the stack and the context of the kernel**, as long as no panic unwinds
an action or a run loop.
-/

namespace EventSim

/-- A timed event that is being carried out. -/
structure Execution where
  event : Event (Payload Action)
  /-- The height of the stack up to its run loop. -/
  depth : Nat
  /-- A run loop of the kernel has ended since the event started. -/
  interrupted : Bool

/-- The context that a timed event leaves to what it does. -/
def Execution.context (y : Execution) : Context :=
  if y.interrupted then noContext else y.event.key.context

/-- The context that the innermost of several executions leaves. -/
def innermostContext (l : List Execution) : Context :=
  (l.head?.map Execution.context).getD noContext

/-- A run loop has come to its end. -/
def Note.isEnd {α : Type} : Note α → Bool
  | .ended => true
  | _ => false

namespace Machine

/-- The executions after a move: an event that starts is the innermost, the end of a run loop
interrupts all, and those are over whose run loop is the topmost frame. -/
def advance (id : KernelId) (m : Machine) (x : Move) (l : List Execution) : List Execution :=
  let notes := notesAbout id (m.notes x)
  let started := (startedIn notes).map fun e => ⟨e, m.stack.length, false⟩
  let older := l.map fun y => { y with interrupted := y.interrupted || notes.any Note.isEnd }
  (started ++ older).filter fun y => y.depth < (m.make x).stack.length

/-- If a panic unwinds the stack, there is neither an action nor a run loop on it. -/
def Spares (m : Machine) (x : Move) : Prop :=
  (m.make x).Panicked ∨ (∃ frames, x = .unwind frames) →
    m.launches x = [] ∧ ∀ r ∈ roles m.stack, r ≠ .body ∧ ∀ id, r ≠ .running id

end Machine

/-! ### Run loops on the stack -/

/-- The topmost frame is the run loop of the kernel. -/
def Runs (id : KernelId) (s : List Role) : Prop := ∃ below, s = .running id :: below

/-- The frame at the height `depth` is the run loop of the kernel, and something stands on it. -/
def Covered (id : KernelId) (s : List Role) (depth : Nat) : Prop :=
  ∃ above below, s = above ++ .running id :: below ∧ above ≠ [] ∧ depth = below.length + 1

variable {id : KernelId} {s : List Role} {depth : Nat}

theorem runs_roles {stack : List Frame} :
    Runs id (roles stack) ↔ ∃ rest, stack = .running id :: rest := by
  constructor
  · rintro ⟨below, hbelow⟩
    cases stack with
    | nil => cases hbelow
    | cons f rest =>
      have hf : f.role = .running id := (List.cons.inj hbelow).1
      cases f <;> cases hf
      exact ⟨rest, rfl⟩
  · rintro ⟨rest, rfl⟩
    exact ⟨roles rest, rfl⟩

theorem Covered.lt (h : Covered id s depth) : depth < s.length := by
  obtain ⟨above, below, rfl, ha, rfl⟩ := h
  have := List.length_pos_iff.2 ha
  simp only [List.length_append, List.length_cons]
  omega

theorem Covered.mem (h : Covered id s depth) : .running id ∈ s := by
  obtain ⟨above, below, rfl, -, -⟩ := h
  simp

theorem Covered.append (h : Covered id s depth) (new : List Role) :
    Covered id (new ++ s) depth := by
  obtain ⟨above, below, rfl, ha, rfl⟩ := h
  exact ⟨new ++ above, below, by rw [List.append_assoc], by simp [ha], rfl⟩

/-- What stays covered when the topmost frame goes is what is not the topmost then. -/
theorem Covered.tail (h : Covered id s depth) (hlt : depth < s.tail.length) :
    Covered id s.tail depth := by
  obtain ⟨above, below, rfl, ha, rfl⟩ := h
  obtain ⟨f, above, rfl⟩ := List.exists_cons_of_ne_nil ha
  refine ⟨above, below, rfl, ?_, rfl⟩
  rintro rfl
  simp at hlt

theorem Covered.lt_tail (h : Covered id s depth) (hr : ¬ Runs id s.tail) :
    depth < s.tail.length := by
  obtain ⟨above, below, rfl, ha, rfl⟩ := h
  obtain ⟨f, above, rfl⟩ := List.exists_cons_of_ne_nil ha
  cases above with
  | nil => exact (hr ⟨below, rfl⟩).elim
  | cons g above =>
    simp only [List.cons_append, List.tail_cons, List.length_append, List.length_cons]
    omega

namespace Machine

variable {m : Machine} {w : World} {rest : List Frame} {result : Option (Except Panic Reply)}
  {x : Move} {l : List Execution} {p : Command → Prop}

/-- Where nothing panics, nothing is unwound. -/
theorem spares_of_calm (hx : ∀ frames, x ≠ .unwind frames)
    (hr : (m.make x).result.all Except.isOk = true) : m.Spares x := by
  rintro (⟨-, p, hp⟩ | ⟨frames, hf⟩)
  · rw [hp] at hr
    cases hr
  · exact (hx frames hf).elim

theorem length_roles (stack : List Frame) : (roles stack).length = stack.length :=
  List.length_map ..

/-- The executions of a kernel are what its context and the stack say. -/
structure Attuned (id : KernelId) (m : Machine) (l : List Execution) : Prop where
  covered : ∀ y ∈ l, Covered id (roles m.stack) y.depth
  made : l ≠ [] → (m.world.kernel? id).isSome
  context : ¬ Runs id (roles m.stack) → m.world.contextAt id = innermostContext l

theorem attuned_pristine (environment : Option String) (id : KernelId) :
    Attuned id ⟨.pristine environment, [], none⟩ [] where
  covered := fun _ hy => by cases hy
  made := fun h => (h rfl).elim
  context := fun _ => rfl

/-- Without a run loop on the stack nothing is being carried out. -/
theorem Attuned.eq_nil (h : Attuned id m l) (hr : .running id ∉ roles m.stack) : l = [] :=
  List.eq_nil_iff_forall_not_mem.2 fun y hy => hr (h.covered y hy).mem

/-! ### Moves that are none of the run loop -/

/-- The context is set by the run loop alone. -/
theorem not_sets_of_frame {f : Frame} {y : Happening} (hf : f.role ≠ .running id)
    (hy : f.Brings w y) : ¬ y.Sets id := by
  have hdeed {j : KernelId} (hd : ∃ d : Deed Action, d.OfDestruction ∧ y = .did j d) :
      ¬ y.Sets id := by
    obtain ⟨d, hd, rfl⟩ := hd
    rintro ⟨-, hs⟩
    cases d <;> first | exact hs | exact hd
  cases f with
  | body reporting left =>
    cases left with
    | nil => cases hy; exact fun hs => hs
    | cons c left => exact World.not_sets_of_brings hy
  | answering => cases hy; exact fun hs => hs
  | running j =>
    rcases hy with hy | ⟨d, -, rfl⟩
    · exact World.not_sets_of_building hy
    · rintro ⟨rfl, -⟩
      exact hf rfl
  | destroying j =>
    rcases hy with hy | hy
    · exact World.not_sets_of_building hy
    · exact hdeed hy
  | clearing found =>
    rcases hy with rfl | rfl | ⟨j, -, rfl⟩
    · exact fun hs => hs
    · exact fun hs => hs
    · exact fun hs => hs.2
  | scenario run stage =>
    cases stage with
    | probing saved left replies =>
      cases left with
      | nil => cases hy; exact fun hs => hs
      | cons probe left => exact World.not_sets_of_brings hy
    | judged => rcases hy with rfl | rfl <;> exact fun hs => hs
    | _ => cases hy; exact fun hs => hs

theorem Allows.retains (hx : m.Allows p x) (hr : ¬ Runs id (roles m.stack)) :
    World.Retains id m.world (m.make x).world := by
  cases x with
  | call c => exact ((evolves_start c).mono fun _ => World.not_sets_of_brings).retains
  | unwind frames => exact .refl id m.world
  | step =>
    obtain ⟨w, stack, result⟩ := m
    cases stack with
    | nil => exact .refl id w
    | cons f rest =>
      refine ((evolves_step f rest).mono fun y => not_sets_of_frame ?_).retains
      exact fun hf => hr ⟨roles rest, congrArg (· :: roles rest) hf⟩

/-- A deed that sets the context is one of the run loop on the top. -/
theorem runs_of_turn {d : Deed Action} (ht : m.turn? x = some (id, d)) (hd : d.Sets) :
    Runs id (roles m.stack) := by
  cases (turn_cases ht).2 with
  | running hs => exact ⟨_, congrArg roles hs⟩
  | destroying =>
    unfold Kernel.unwinding at hd
    split at hd <;> exact hd.elim
  | clearing => exact hd.elim

theorem notesAbout_turn {k : Kernel Action} {d : Deed Action} (ht : m.turn? x = some (id, d))
    (hk : m.world.kernel? id = some k) : notesAbout id (m.notes x) = (k.note? d).toList := by
  have ho : m.onset? x = none := (onset?_or_turn? m x).resolve_right (by simp [ht])
  rw [notes, ho, ht]
  simp only [Option.elim_none, Option.elim_some, List.nil_append, World.noted, hk,
    Option.bind_some]
  exact World.notesAbout_self id _

/-- Unless the run loop is on the top, no event starts and no run loop ends. -/
theorem not_runs_notes (hr : ¬ Runs id (roles m.stack)) :
    startedIn (notesAbout id (m.notes x)) = [] ∧
      (notesAbout id (m.notes x)).any Note.isEnd = false := by
  have hnote {n : Note Action} (hn : n ∈ notesAbout id (m.notes x)) :
      n.started? = none ∧ n.isEnd = false := by
    obtain ⟨⟨j, n'⟩, hm, heq⟩ := List.mem_filterMap.1 hn
    dsimp only at heq
    split at heq <;> cases heq
    subst j
    cases n with
    | started e =>
      obtain ⟨-, k, d, ht, -, hd⟩ := turn_of_mem_notes hm trivial
      refine (hr (runs_of_turn ht ?_)).elim
      cases d <;> first | trivial | simp [Kernel.note?] at hd
    | ended =>
      obtain ⟨-, k, d, ht, -, hd⟩ := turn_of_mem_notes hm trivial
      refine (hr (runs_of_turn ht ?_)).elim
      cases d <;> first | trivial | simp [Kernel.note?] at hd
    | _ => exact ⟨rfl, rfl⟩
  constructor
  · exact List.filterMap_eq_nil_iff.2 fun n hn => (hnote hn).1
  · exact List.any_eq_false.2 fun n hn => by simp [(hnote hn).2]

/-- What a gentle move can be to the stack: frames are pushed, one is popped, or there is no run
loop on it. -/
theorem Spares.stack (hs : m.Spares x) (hx : m.Allows p x) :
    (∃ new, roles (m.make x).stack = new ++ roles m.stack) ∨
      roles (m.make x).stack = (roles m.stack).tail ∨ ∀ id, .running id ∉ roles m.stack := by
  have hnone (h : ∀ r ∈ roles m.stack, r ≠ .body ∧ ∀ id, r ≠ .running id) (id : KernelId) :
      .running id ∉ roles m.stack := fun hm => (h _ hm).2 id rfl
  cases hx.passes with
  | launched w a hl hm =>
    rcases roles_startAction w m.stack m.result a with h | h
    · have hempty := (hs (.inl (hm ▸ h))).1
      rw [hl] at hempty
      cases hempty
    · exact .inl ⟨[.body], by rw [hm, h]; rfl⟩
  | extended hl h =>
    rcases h with h | ⟨new, h, -⟩
    · exact .inr (.inr (hnone (hs (.inl h)).2))
    · exact .inl ⟨new, h⟩
  | popped hl h => exact .inr (.inl h)
  | unwound frames hu => exact .inr (.inr (hnone (hs (.inr ⟨frames, hu⟩)).2))

/-- A move that is none of the run loop keeps the executions in tune. -/
theorem Attuned.aside (h : Attuned id m l) (hx : m.Allows p x) (hs : m.Spares x)
    (hr : ¬ Runs id (roles m.stack)) : Attuned id (m.make x) (m.advance id x l) := by
  have hret := hx.retains hr
  obtain ⟨hstarted, hended⟩ := not_runs_notes (x := x) hr
  have hl' : m.advance id x l = l.filter fun y => y.depth < (m.make x).stack.length := by
    simp [advance, hstarted, hended]
  rw [hl']
  have hmade (hne : l.filter (fun y => y.depth < (m.make x).stack.length) ≠ []) :
      ((m.make x).world.kernel? id).isSome := by
    refine hret.stays (h.made ?_)
    rintro rfl
    exact hne rfl
  have hsame (hall : ∀ y ∈ l, y.depth < (m.make x).stack.length) :
      l.filter (fun y => y.depth < (m.make x).stack.length) = l :=
    List.filter_eq_self.2 fun y hy => decide_eq_true (hall y hy)
  rcases hs.stack hx with ⟨new, hnew⟩ | htail | hnone
  · have hall : ∀ y ∈ l, y.depth < (m.make x).stack.length := by
      intro y hy
      rw [← length_roles, hnew]
      exact ((h.covered y hy).append new).lt
    refine ⟨fun y hy => ?_, hmade, fun _ => ?_⟩
    · rw [hnew]
      exact (h.covered y (List.mem_of_mem_filter hy)).append new
    · rw [hsame hall, hret.context, h.context hr]
  · have hlen : (m.make x).stack.length = (roles m.stack).tail.length := by
      rw [← length_roles, htail]
    refine ⟨fun y hy => ?_, hmade, fun hr' => ?_⟩
    · rw [htail]
      refine (h.covered y (List.mem_of_mem_filter hy)).tail ?_
      rw [← hlen]
      simpa using List.of_mem_filter hy
    · rw [htail] at hr'
      rw [hsame fun y hy => hlen ▸ (h.covered y hy).lt_tail hr', hret.context, h.context hr]
  · obtain rfl := h.eq_nil (hnone id)
    exact ⟨(fun y hy => by cases hy), hmade, fun _ => hret.context.trans (h.context hr)⟩

/-! ### Turns of a run loop -/

theorem roles_running : roles (.running id :: rest) = .running id :: roles rest := rfl

/-- As long as the run loop stays on the top, nothing is said about the context. -/
theorem Attuned.again (h : Attuned id ⟨w, .running id :: rest, result⟩ l)
    (hr : roles (make ⟨w, .running id :: rest, result⟩ .step).stack = .running id :: roles rest)
    (hk : ((make ⟨w, .running id :: rest, result⟩ .step).world.kernel? id).isSome) :
    Attuned id (make ⟨w, .running id :: rest, result⟩ .step)
      (advance id ⟨w, .running id :: rest, result⟩ .step l) := by
  have hlen : (make ⟨w, .running id :: rest, result⟩ .step).stack.length = rest.length + 1 := by
    rw [← length_roles, hr, List.length_cons, length_roles]
  refine ⟨fun y hy => ?_, fun _ => hk, fun hn => (hn ⟨_, hr⟩).elim⟩
  rw [hr]
  obtain ⟨hmem, hlt⟩ := List.mem_filter.1 hy
  rcases List.mem_append.1 hmem with hm | hm
  · obtain ⟨e, -, rfl⟩ := List.mem_map.1 hm
    simp [hlen] at hlt
  · obtain ⟨y', hy', rfl⟩ := List.mem_map.1 hm
    exact h.covered y' hy'

/-- When the run loop has ended, the events that it interrupts have no context left. -/
theorem Attuned.ended {watched : Bool} {k : Kernel Action}
    (h : Attuned id ⟨w, .running id :: rest, result⟩ l)
    (he : w.engine? id = some (.builtIn watched k)) (hd : k.dequeue.deed = .ended)
    (hr : roles (make ⟨w, .running id :: rest, result⟩ .step).stack = roles rest)
    (hk' : (make ⟨w, .running id :: rest, result⟩ .step).world.kernel? id = some k.endRun) :
    Attuned id (make ⟨w, .running id :: rest, result⟩ .step)
      (advance id ⟨w, .running id :: rest, result⟩ .step l) := by
  have hlen : (make ⟨w, .running id :: rest, result⟩ .step).stack.length = rest.length := by
    rw [← length_roles, hr, length_roles]
  have ht : turn? ⟨w, .running id :: rest, result⟩ .step = some (id, .ended) :=
    hd ▸ turn?_running he
  have hold : ∀ y ∈ advance id ⟨w, .running id :: rest, result⟩ .step l,
      y.interrupted = true ∧ y.depth < rest.length ∧ ∃ y' ∈ l, y'.depth = y.depth := by
    intro y hy
    obtain ⟨hmem, hlt⟩ := List.mem_filter.1 hy
    rw [notesAbout_turn ht (World.kernel?_eq_some.2 ⟨watched, he⟩)] at hmem
    rcases List.mem_append.1 hmem with hm | hm
    · cases hm
    · obtain ⟨y', hy', rfl⟩ := List.mem_map.1 hm
      rw [hlen] at hlt
      exact ⟨by simp [Kernel.note?, Note.isEnd], by simpa using hlt, y', hy', rfl⟩
  refine ⟨fun y hy => ?_, fun _ => by rw [hk']; rfl, fun _ => ?_⟩
  · obtain ⟨-, hlt, y', hy', heq⟩ := hold y hy
    rw [hr]
    have hc := h.covered y' hy'
    rw [heq] at hc
    exact hc.tail (by rwa [roles_running, List.tail_cons, length_roles])
  · rw [World.contextAt_of_kernel? hk']
    unfold innermostContext
    cases hl : advance id ⟨w, .running id :: rest, result⟩ .step l with
    | nil => rfl
    | cons y older =>
      have hi := (hold y (hl ▸ List.mem_cons_self)).1
      simp [Execution.context, hi, Kernel.endRun]

/-- An event that starts is the innermost one and leaves its context. -/
theorem Attuned.started {watched : Bool} {k : Kernel Action} {e : Event (Payload Action)}
    (h : Attuned id ⟨w, .running id :: rest, result⟩ l)
    (he : w.engine? id = some (.builtIn watched k)) (hd : k.dequeue.deed = .started e)
    (hr : roles (make ⟨w, .running id :: rest, result⟩ .step).stack =
      .body :: .running id :: roles rest)
    (hm : ((make ⟨w, .running id :: rest, result⟩ .step).world.kernel? id).isSome)
    (hc : (make ⟨w, .running id :: rest, result⟩ .step).world.contextAt id = e.key.context) :
    Attuned id (make ⟨w, .running id :: rest, result⟩ .step)
      (advance id ⟨w, .running id :: rest, result⟩ .step l) := by
  have hlen : (make ⟨w, .running id :: rest, result⟩ .step).stack.length = rest.length + 2 := by
    rw [← length_roles, hr, List.length_cons, List.length_cons, length_roles]
  have ht : turn? ⟨w, .running id :: rest, result⟩ .step = some (id, .started e) :=
    hd ▸ turn?_running he
  have hl : advance id ⟨w, .running id :: rest, result⟩ .step l =
      ⟨e, rest.length + 1, false⟩ :: l := by
    unfold advance
    rw [notesAbout_turn ht (World.kernel?_eq_some.2 ⟨watched, he⟩), hlen]
    have hall : ∀ y ∈ l, y.depth < rest.length + 2 := by
      intro y hy
      have hlt := (h.covered y hy).lt
      rw [length_roles, List.length_cons] at hlt
      exact Nat.lt_succ_of_lt hlt
    simpa [Kernel.note?, startedIn, Note.started?, Note.isEnd] using hall
  rw [hl]
  refine ⟨fun y hy => ?_, fun _ => hm, fun _ => hc⟩
  rw [hr]
  rcases List.mem_cons.1 hy with rfl | hy
  · exact ⟨[.body], roles rest, rfl, List.cons_ne_nil _ _, by rw [length_roles]⟩
  · exact (h.covered y hy).append [.body]

/-- An action that starts leaves the context of every kernel as it is. -/
theorem retains_startAction (w : World) (stack : List Frame)
    (result : Option (Except Panic Reply)) (a : Action) :
    World.Retains id w (startAction ⟨w, stack, result⟩ a).world :=
  ((evolves_startAction a).mono fun _ => World.not_sets_of_building).retains

/-- A turn of the run loop keeps the executions in tune. -/
theorem Attuned.turn (h : Attuned id ⟨w, .running id :: rest, result⟩ l)
    (hs : Spares ⟨w, .running id :: rest, result⟩ .step) :
    Attuned id (make ⟨w, .running id :: rest, result⟩ .step)
      (advance id ⟨w, .running id :: rest, result⟩ .step l) := by
  have hcalm : ¬ (make ⟨w, .running id :: rest, result⟩ .step).Panicked := fun hp =>
    ((hs (.inl hp)).2 (.running id) List.mem_cons_self).2 id rfl
  have hset {watched : Bool} {k : Kernel Action} (he : w.engine? id = some (.builtIn watched k))
      (k' : Kernel Action) : (w.setEngine id (.builtIn watched k')).kernel? id = some k' :=
    World.kernel?_eq_some.2 ⟨watched, World.engine?_setEngine_self he _⟩
  have ht := runTurn_stepRun w id (.running id :: rest) rest result
  generalize hmake : stepRun ⟨w, .running id :: rest, result⟩ id rest = n at ht
  have hmake : make ⟨w, .running id :: rest, result⟩ .step = n := hmake
  cases ht with
  | absent hne =>
    have hk : w.kernel? id = none := World.kernel?_eq_none hne
    obtain rfl : l = [] := by
      by_contra hl
      have hm : (w.kernel? id).isSome := h.made hl
      rw [hk] at hm
      cases hm
    have hadvance : advance id ⟨w, .running id :: rest, result⟩ .step [] = [] := by
      unfold advance
      rw [notes, turn?_running_of_none hk]
      rfl
    rw [hadvance]
    refine ⟨(fun y hy => by cases hy), fun hl => (hl rfl).elim,
      fun _ => World.contextAt_of_none ?_⟩
    rw [hmake, World.kernel?_congr (aside_deliver _).engines]
    exact hk
  | ended he hq =>
    refine h.ended he (by rw [hq]; rfl) (by rw [hmake, roles_deliver]) ?_
    rw [hmake, World.kernel?_congr (aside_deliver _).engines, hset he]
  | skipped he hq =>
    refine h.again (by rw [hmake]; rfl) ?_
    rw [hmake, World.kernel?_congr (World.aside_releaseAll _ _).engines, hset he]
    rfl
  | strayed => exact (hcalm (hmake ▸ panicked_panic _)).elim
  | halted he =>
    refine h.again (by rw [hmake]; rfl) ?_
    rw [hmake, hset he]
    rfl
  | @launched watched k k' e a he hq =>
    have hcontext : k'.context = e.key.context := by
      obtain ⟨_, -, -, -, rfl⟩ := Kernel.dequeue_eq_started hq
      rfl
    have hret : World.Retains id (w.setEngine id (.builtIn watched k'))
        (make ⟨w, .running id :: rest, result⟩ .step).world := by
      rw [hmake]
      exact retains_startAction _ _ _ a
    refine h.started he (by rw [hq]; rfl) ?_ (hret.stays (by rw [hset he]; rfl)) ?_
    · rw [hmake] at hcalm ⊢
      exact (roles_startAction _ _ _ a).resolve_left hcalm
    · rw [hret.context, World.contextAt_of_kernel? (hset he k'), hcontext]

/-- **Every move keeps the executions in tune**, if no panic unwinds an action or a run loop. -/
theorem Attuned.make (h : Attuned id m l) (hx : m.Allows p x) (hs : m.Spares x) :
    Attuned id (m.make x) (m.advance id x l) := by
  by_cases hr : Runs id (roles m.stack)
  · obtain ⟨w, stack, result⟩ := m
    obtain ⟨rest, rfl⟩ := runs_roles.1 hr
    cases x with
    | call c => cases hx.1
    | unwind frames =>
      have hspare := (hs (.inr ⟨frames, rfl⟩)).2 (.running id) List.mem_cons_self
      exact (hspare.2 id rfl).elim
    | step => exact h.turn hs
  · exact h.aside hx hs hr

end Machine

end EventSim
