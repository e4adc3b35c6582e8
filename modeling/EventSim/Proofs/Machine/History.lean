import EventSim.Proofs.Machine.Bookkeeping
import EventSim.Proofs.World.Requests

/-!
# Histories of sessions

A session is moved by calls from outside, by the steps that carry a call out, and by panics that
unwind it.  A history is the list of its moves, the newest first, and `History.after` the session
that it leads to.  `Machine.notes` says what is noted of a move: what is noted of the command that
starts, and of the deed that a run loop, a destruction or the end of a teardown does by itself.

So every kernel has a record of its whole life, `History.record`, and `Permitted.keeps`: **what
every deed keeps holds of each kernel and its record after every lawful history.**
-/

namespace EventSim

/-- What moves a session. -/
inductive Move where
  /-- A command is called from outside. -/
  | call (c : Command)
  /-- The call is carried out by one step. -/
  | step
  /-- A panic unwinds the call by so many frames. -/
  | unwind (frames : Nat)

/-- The deed of a run loop that goes on with this. -/
def Dequeued.deed {α : Type} : Dequeued α → Deed α
  | .idle => .ended
  | .skipped payload _ => .skipped payload
  | .past payload _ => .strayed payload
  | .started e _ => .started e

/-- It is about a deed of a run loop, of a destruction or of the end of a teardown. -/
def Note.OfTurn {α : Type} : Note α → Prop
  | .issued .. | .withdrawn .. => False
  | _ => True

/-- The next deed of the destruction of a kernel. -/
def Kernel.unwinding {α : Type} (k : Kernel α) : Deed α :=
  match k.popTeardown with
  | some (e, _) => .unwound e
  | none => .swept

namespace Machine

/-- The session after a move. -/
def make (m : Machine) : Move → Machine
  | .call c => ofCall m.world c
  | .step => m.step
  | .unwind frames => { m with stack := m.stack.drop frames }

/-- The move may be made: a call only while no other is carried out. -/
def Allows (p : Command → Prop) (m : Machine) : Move → Prop
  | .call c => m.stack = [] ∧ c.All p
  | .step | .unwind _ => True

/-- The command that a move starts, and the world in which it does. -/
def onset? (m : Machine) : Move → Option (World × Command)
  | .call c => some (m.world, c)
  | .step =>
    match m.stack with
    | .body reporting (c :: _) :: _ =>
      some (if reporting && c.settles then m.world.log (.began c.name) else m.world, c)
    | .scenario _ (.probing _ (probe :: _) _) :: _ => some (m.world, probe.command)
    | _ => none
  | .unwind _ => none

/-- The deed that a move does by itself, and the kernel that does it. -/
def turn? (m : Machine) : Move → Option (KernelId × Deed Action)
  | .step =>
    match m.stack with
    | .running id :: _ => (m.world.kernel? id).map fun k => (id, k.dequeue.deed)
    | .destroying id :: _ => (m.world.kernel? id).map fun k => (id, k.unwinding)
    | .clearing _ :: _ =>
      m.world.slot.bind fun id => if m.world.isNamed id then none else some (id, .vanished)
    | _ => none
  | .call _ | .unwind _ => none

/-- The scheduling calls of a move, in their order. -/
def requests (m : Machine) (x : Move) : List Request :=
  (m.onset? x).elim [] fun p => p.1.requests p.2

/-- What is noted of a move, the first note first. -/
def notes (m : Machine) (x : Move) : List (KernelId × Note Action) :=
  ((m.onset? x).elim [] fun p => p.1.notes p.2) ++
    (m.turn? x).elim [] fun p => m.world.noted p.1 p.2

/-- The move starts a command that withdraws the event of a handle from a kernel. -/
def Revokes (m : Machine) (x : Move) (id : KernelId) (h : Handle) : Prop :=
  ∃ w c t name, m.onset? x = some (w, c) ∧ (c = .cancel t name ∨ c = .remove t name) ∧
    w.find t = .ok (some id) ∧ w.handle name = h

variable {m : Machine} {w : World} {stack rest : List Frame}
  {result : Option (Except Panic Reply)} {id : KernelId} {x : Move}

/-- A command that schedules or withdraws something is carried out at once. -/
theorem aside_start_of_not_quiet {c : Command} (hc : ¬ c.Quiet) :
    (w.perform c).2.Aside (start ⟨w, stack, result⟩ c).world := by
  cases c with
  | schedule | scheduleEach | chain | stopAfter | cancel | remove =>
    unfold start
    dsimp only
    split
    · rename_i heq
      rw [heq]
      exact aside_panic _
    · rename_i heq
      rw [heq]
      exact aside_deliver _
  | _ => exact (hc trivial).elim

/-- **A command that starts does to the kernels just what is noted of it.** -/
theorem lives_start (s : w.Sound) {c : Command} (hc : c.Lawful) :
    w.Lives (w.notes c) (start ⟨w, stack, result⟩ c).world := by
  by_cases hq : c.Quiet
  · rw [World.notes_of_quiet hq]
    exact s.lives ((evolves_start c).mono fun x hx => ⟨hc.brings hx, hq.brings hx⟩)
  · exact (s.lives_perform c hq).aside (aside_start_of_not_quiet hq)

/-! ### Deeds of the machine itself -/

theorem noted_of_engine {watched : Bool} {k : Kernel Action} {d : Deed Action}
    (hk : w.engine? id = some (.builtIn watched k)) :
    w.noted id d = ((k.note? d).map fun n => (id, n)).toList := by
  rw [World.noted, World.kernel?_eq_some.2 ⟨watched, hk⟩]
  rfl

/-- A deed that no handle and no backend plays a part in is noted. -/
theorem lives_noted {watched : Bool} {k k' : Kernel Action} {d : Deed Action}
    (hk : w.engine? id = some (.builtIn watched k)) (hd : k.Does d k') (ha : k.Admits d) :
    w.Lives (w.noted id d) (w.setEngine id (.builtIn watched k')) :=
  noted_of_engine hk ▸ World.lives_did hk hd ha

theorem turn?_running {watched : Bool} {k : Kernel Action}
    (hk : w.engine? id = some (.builtIn watched k)) :
    turn? ⟨w, .running id :: rest, result⟩ .step = some (id, k.dequeue.deed) := by
  simp only [turn?, World.kernel?_eq_some.2 ⟨watched, hk⟩, Option.map_some]

theorem turn?_running_of_none (hk : w.kernel? id = none) :
    turn? ⟨w, .running id :: rest, result⟩ .step = none := by
  simp only [turn?, hk, Option.map_none]

theorem turn?_destroying {watched : Bool} {k : Kernel Action}
    (hk : w.engine? id = some (.builtIn watched k)) :
    turn? ⟨w, .destroying id :: rest, result⟩ .step = some (id, k.unwinding) := by
  simp only [turn?, World.kernel?_eq_some.2 ⟨watched, hk⟩, Option.map_some]

theorem turn?_destroying_of_none (hk : w.kernel? id = none) :
    turn? ⟨w, .destroying id :: rest, result⟩ .step = none := by
  simp only [turn?, hk, Option.map_none]

/-- An action starts quietly. -/
theorem lives_startAction (s : w.Sound) (a : Action) :
    w.Lives [] (startAction ⟨w, stack, result⟩ a).world :=
  (s.building (evolves_startAction a)).2

theorem lives_stepRun (s : w.Sound) :
    w.Lives ((turn? ⟨w, .running id :: rest, result⟩ .step).elim [] fun p => w.noted p.1 p.2)
      (stepRun ⟨w, stack, result⟩ id rest).world := by
  have ht := runTurn_stepRun w id stack rest result
  generalize stepRun ⟨w, stack, result⟩ id rest = n at ht ⊢
  cases ht with
  | absent hne =>
    rw [turn?_running_of_none (World.kernel?_eq_none hne)]
    exact (World.Lives.refl w).aside (aside_deliver _)
  | @ended watched k he hq =>
    rw [turn?_running he, hq]
    exact (lives_noted he (.ended k) trivial).aside (aside_deliver _)
  | skipped he hq =>
    rw [turn?_running he, hq]
    exact (lives_noted he (.skipped hq) trivial).aside (World.aside_releaseAll _ _)
  | strayed he hq =>
    rw [turn?_running he, hq]
    have hl := lives_noted he (.strayed hq) trivial
    exact (hl.aside (World.aside_releaseAll _ _)).aside (aside_panic _)
  | @halted watched k k' e he hq =>
    rw [turn?_running he, hq]
    have he' := World.engine?_setEngine_self he (.builtIn watched k')
    have hl := (lives_noted he (.started hq) trivial).trans
      (World.lives_did he' (.stopped k') trivial)
    rw [World.setEngine_setEngine] at hl
    rwa [← List.append_nil (Option.elim ..)]
  | launched he hq =>
    rw [turn?_running he, hq, ← List.append_nil (Option.elim ..)]
    have hs := s.did he (.started hq) trivial
    exact (lives_noted he (.started hq) trivial).trans (lives_startAction hs _)

theorem lives_stepDestroy (s : w.Sound) :
    w.Lives ((turn? ⟨w, .destroying id :: rest, result⟩ .step).elim [] fun p => w.noted p.1 p.2)
      (stepDestroy ⟨w, stack, result⟩ id rest).world := by
  have ht := destroyTurn_stepDestroy w id stack rest result
  generalize stepDestroy ⟨w, stack, result⟩ id rest = n at ht ⊢
  cases ht with
  | absent hne =>
    rw [turn?_destroying_of_none (World.kernel?_eq_none hne)]
    exact (World.Lives.refl w).aside (aside_deliver _)
  | unwound he hq =>
    rw [turn?_destroying he, Kernel.unwinding, hq, ← List.append_nil (Option.elim ..)]
    have hs := s.did he (.unwound hq) trivial
    exact (lives_noted he (.unwound hq) trivial).trans (lives_startAction hs _)
  | @swept watched k he hq =>
    rw [turn?_destroying he, Kernel.unwinding, hq]
    have hl := lives_noted he (.swept k (Kernel.popTeardown_eq_none.1 hq)) trivial
    exact (hl.aside (World.aside_releaseAll _ _)).aside (aside_deliver _)

theorem lives_abandon (w : World) (id : KernelId) :
    w.Lives (if w.isNamed id then [] else w.noted id .vanished) (w.abandon id) := by
  unfold World.abandon
  split
  · exact .refl w
  · split
    · rename_i hnone
      have hk : w.kernel? id = none := by rw [World.kernel?, hnone]
      rw [World.noted, hk]
      exact .refl w
    · rename_i e he
      have ha := World.aside_releaseAll w e.held
      have he' : (w.releaseAll e.held).engine? id = some e := by
        rw [World.engine?, ha.engines]
        exact he
      rw [World.mapEngine_of_engine? he']
      cases e with
      | builtIn watched k =>
        have hl := World.lives_did he' (.vanished k) trivial
        rw [noted_of_engine he]
        exact (World.Lives.refl w).aside ha |>.trans hl
      | fixed k =>
        have hk : w.kernel? id = none := by rw [World.kernel?, he]
        rw [World.noted, hk]
        simp only [Engine.onKernel, World.setEngine_of_engine? he']
        exact (World.Lives.refl w).aside ha

theorem lives_stepClear {found : KernelId} :
    w.Lives ((turn? ⟨w, .clearing found :: rest, result⟩ .step).elim [] fun p => w.noted p.1 p.2)
      (stepClear ⟨w, stack, result⟩ rest).world := by
  unfold stepClear
  refine World.Lives.aside ?_ (aside_deliver _)
  dsimp only [turn?]
  cases hs : w.slot with
  | none => exact .refl w
  | some id =>
    have hl := lives_abandon { w with slot := none } id
    have hslot : w.Lives [] { w with slot := none } := .of_engines rfl
    have h := hslot.trans hl
    dsimp only [Option.bind_some]
    by_cases hn : w.isNamed id = true
    · rw [if_pos hn]
      rwa [if_pos (show ({ w with slot := none } : World).isNamed id = true from hn)] at h
    · rw [if_neg hn]
      rwa [if_neg (show ¬ ({ w with slot := none } : World).isNamed id = true from hn)] at h

/-! ### Moves -/

/-- What a step does to the kernels is what is noted of it. -/
theorem lives_step (s : w.Sound) {f : Frame} (hf : f.All Command.Lawful) :
    w.Lives (notes ⟨w, f :: rest, result⟩ .step) (step ⟨w, f :: rest, result⟩).world := by
  have hquiet (hb : ∀ x, f.Brings w x → x.Quiet) :
      w.Lives [] (step ⟨w, f :: rest, result⟩).world :=
    s.lives ((evolves_step f rest).mono fun x hx => ⟨hf.lawful hx, hb x hx⟩)
  cases f with
  | body reporting left =>
    cases left with
    | nil => exact .refl w
    | cons c left =>
      rw [notes]
      simp only [onset?, turn?, Option.elim_some, Option.elim_none, List.append_nil, step]
      generalize hv : (if (reporting && c.settles) = true then w.log (.began c.name) else w) = v
      have ha : w.Aside v := by
        rw [← hv]
        split
        · exact World.aside_log w _
        · exact .refl w
      have hc := (hf c List.mem_cons_self).self
      exact ((World.Lives.refl w).aside ha).trans (lives_start (s.aside ha) hc)
  | answering => exact .refl w
  | running id => exact lives_stepRun s
  | destroying id => exact lives_stepDestroy s
  | clearing found => exact lives_stepClear
  | scenario run stage =>
    cases stage with
    | probing saved left replies =>
      cases left with
      | nil => exact .refl w
      | cons probe left =>
        rw [notes]
        simp only [onset?, turn?, Option.elim_some, Option.elim_none, List.append_nil]
        exact lives_start s (hf probe List.mem_cons_self).self
    | judged => exact hquiet fun x hx => by rcases hx with rfl | rfl <;> trivial
    | _ => exact hquiet fun x hx => by cases hx; trivial

/-- **What a move does to the kernels is what is noted of it.** -/
theorem Reached.lives (hm : Reached Command.Lawful m) (hx : m.Allows Command.Lawful x) :
    m.world.Lives (m.notes x) (m.make x).world := by
  cases x with
  | call c =>
    have hl : m.world.Lives (m.world.notes c) (start ⟨m.world, [], none⟩ c).world :=
      lives_start hm.sound hx.2.self
    rw [notes]
    simp only [onset?, turn?, Option.elim_some, Option.elim_none, List.append_nil]
    exact hl
  | step =>
    have hcarries := hm.carries fun _ => Command.Staged.lawful
    have hs := hm.sound
    obtain ⟨w, stack, result⟩ := m
    cases stack with
    | nil => exact .refl w
    | cons f rest => exact lives_step hs (hcarries.waiting f List.mem_cons_self)
  | unwind frames => exact .refl m.world

theorem Reached.make {p : Command → Prop} (hm : Reached p m) (hx : m.Allows p x) :
    Reached p (m.make x) := by
  cases x with
  | call c => exact .call hm hx.1 hx.2
  | step => exact .step hm
  | unwind frames => exact .unwound hm (List.drop_suffix frames m.stack)

/-! ### Where notes come from -/

/-- Nothing starts a command and does a deed of its own at once. -/
theorem onset?_or_turn? (m : Machine) (x : Move) : m.onset? x = none ∨ m.turn? x = none := by
  cases x with
  | call => exact .inr rfl
  | unwind => exact .inl rfl
  | step =>
    obtain ⟨w, stack, result⟩ := m
    cases stack with
    | nil => exact .inl rfl
    | cons f rest =>
      cases f with
      | body | answering | scenario => exact .inr rfl
      | running | destroying | clearing => exact .inl rfl

/-- The deed that the frame on the top does by itself. -/
inductive Turn (m : Machine) (id : KernelId) : Deed Action → Prop
  | running {rest : List Frame} {k : Kernel Action} :
      m.stack = .running id :: rest → m.world.kernel? id = some k → Turn m id k.dequeue.deed
  | destroying {rest : List Frame} {k : Kernel Action} :
      m.stack = .destroying id :: rest → m.world.kernel? id = some k → Turn m id k.unwinding
  | clearing {found : KernelId} {rest : List Frame} :
      m.stack = .clearing found :: rest → m.world.slot = some id → m.world.isNamed id = false →
      Turn m id .vanished

/-- What a move does by itself, the frame on the top does in a step. -/
theorem turn_cases {d : Deed Action} (h : m.turn? x = some (id, d)) : x = .step ∧ m.Turn id d := by
  cases x with
  | call => cases h
  | unwind => cases h
  | step =>
    refine ⟨rfl, ?_⟩
    unfold turn? at h
    dsimp only at h
    split at h
    · rename_i hs
      obtain ⟨k, hk, heq⟩ := Option.map_eq_some_iff.1 h
      cases heq
      exact .running hs hk
    · rename_i hs
      obtain ⟨k, hk, heq⟩ := Option.map_eq_some_iff.1 h
      cases heq
      exact .destroying hs hk
    · rename_i hs
      obtain ⟨j, hj, heq⟩ := Option.bind_eq_some_iff.1 h
      split at heq
      · cases heq
      · rename_i hn
        cases heq
        exact .clearing hs hj (Bool.eq_false_iff.2 hn)
    · cases h

/-- The deed of a run loop, of a destruction or of the end of a teardown. -/
theorem Turn.deed {d : Deed Action} (h : m.Turn id d) :
    d.OfRun ∨ d.OfDestruction ∨ d = .vanished := by
  cases h with
  | @running _ k => cases k.dequeue <;> exact .inl trivial
  | destroying =>
    unfold Kernel.unwinding
    split <;> exact .inr (.inl trivial)
  | clearing => exact .inr (.inr rfl)

theorem mem_noted {d : Deed Action} {j : KernelId} {n : Note Action} (h : (id, n) ∈ w.noted j d) :
    j = id ∧ w.noted j d = [(id, n)] ∧ ∃ k, w.kernel? id = some k ∧ k.note? d = some n := by
  rw [World.noted, Option.mem_toList, Option.map_eq_some_iff] at h
  obtain ⟨n', hn', heq⟩ := h
  cases heq
  obtain ⟨k, hk, hkn⟩ := Option.bind_eq_some_iff.1 hn'
  refine ⟨rfl, ?_, k, hk, hkn⟩
  rw [World.noted, hn']
  rfl

/-- A note is about a scheduling call, about a withdrawal, or the only one of its move. -/
theorem mem_notes {n : Note Action} (h : (id, n) ∈ m.notes x) :
    (∃ q ∈ m.requests x, q.note? = some (id, n)) ∨ (∃ g lost, n = .withdrawn g lost) ∨
      m.notes x = [(id, n)] ∧ ∃ k d, m.turn? x = some (id, d) ∧ m.world.kernel? id = some k ∧
        k.note? d = some n := by
  rcases List.mem_append.1 h with ho | ht
  · cases hon : m.onset? x with
    | none =>
      rw [hon] at ho
      cases ho
    | some p =>
      rw [hon] at ho
      rcases World.mem_notes ho with ⟨q, hq, hqn⟩ | hw
      · exact .inl ⟨q, by rwa [requests, hon], hqn⟩
      · exact .inr (.inl hw)
  · cases htu : m.turn? x with
    | none =>
      rw [htu] at ht
      cases ht
    | some p =>
      obtain ⟨j, d⟩ := p
      rw [htu] at ht
      obtain ⟨rfl, hs, k, hk, hkn⟩ := mem_noted ht
      have hon := (onset?_or_turn? m x).resolve_right (by rw [htu]; simp)
      refine .inr (.inr ⟨?_, k, d, rfl, hk, hkn⟩)
      rw [notes, hon, htu]
      exact hs

theorem note?_eq_some {q : Request} {n : Note Action} (h : q.note? = some (id, n)) :
    ∃ g, q.reply = .ok (.handle g) ∧ g.owner = some id ∧ n = .issued g q.payload := by
  unfold Request.note? at h
  split at h
  · rename_i g hr
    obtain ⟨j, hj, heq⟩ := Option.map_eq_some_iff.1 h
    cases heq
    exact ⟨g, hr, hj, rfl⟩
  · cases h

/-- What a kernel has issued was answered by a scheduling call. -/
theorem request_of_issued {g : Handle} {p : Payload Action} (h : (id, .issued g p) ∈ m.notes x) :
    ∃ q ∈ m.requests x, q.reply = .ok (.handle g) ∧ q.payload = p ∧ g.owner = some id := by
  rcases mem_notes h with ⟨q, hq, hn⟩ | ⟨_, _, hw⟩ | ⟨-, k, d, ht, -, hn⟩
  · obtain ⟨g', hr, ho, heq⟩ := note?_eq_some hn
    cases heq
    exact ⟨q, hq, hr, rfl, ho⟩
  · cases hw
  · rcases (turn_cases ht).2.deed with hd | hd | rfl
    · cases d <;> first | exact hd.elim | (rw [Kernel.note?] at hn; simp at hn)
    · cases d <;> first | exact hd.elim | (rw [Kernel.note?] at hn; simp at hn)
    · cases hn

theorem inherits_of_mem_requests {q : Request} {g : Handle} (hq : q ∈ m.requests x)
    (hr : q.reply = .ok (.handle g)) (ho : g.owner.isSome) : q.Inherits g := by
  unfold requests at hq
  cases hon : m.onset? x with
  | none =>
    rw [hon] at hq
    cases hq
  | some p =>
    rw [hon] at hq
    exact Request.inherits_of_mem hq hr ho

/-- A command starts in the world as it is, but for what the journal tells of it. -/
theorem start_of_onset {c : Command} (h : m.onset? x = some (w, c)) :
    (w = m.world ∨ w = m.world.log (.began c.name)) ∧
      ∃ stack result, m.make x = start ⟨w, stack, result⟩ c := by
  cases x with
  | call =>
    cases h
    exact ⟨.inl rfl, _, _, rfl⟩
  | unwind => cases h
  | step =>
    obtain ⟨v, stack, result⟩ := m
    unfold onset? at h
    dsimp only at h
    split at h
    · cases h
      refine ⟨?_, _, _, rfl⟩
      split
      · exact .inr rfl
      · exact .inl rfl
    · cases h
      exact ⟨.inl rfl, _, _, rfl⟩
    · cases h

theorem aside_onset {c : Command} (h : m.onset? x = some (w, c)) : m.world.Aside w := by
  rcases (start_of_onset h).1 with rfl | rfl
  · exact .refl _
  · exact World.aside_log _ _

/-- What is withdrawn from the kernel that has issued it is noted, and nothing else of the move. -/
theorem Revokes.notes {h : Handle} {k : Kernel Action} (hr : m.Revokes x id h)
    (hk : m.world.kernel? id = some k) (hi : k.Issued h) :
    ∃ lost, m.notes x = [(id, .withdrawn h lost)] := by
  obtain ⟨w, c, t, name, ho, hc, hf, rfl⟩ := hr
  have ht : m.turn? x = none := (onset?_or_turn? m x).resolve_left (by simp [ho])
  have hkw : w.kernel? id = some k := (World.kernel?_congr (aside_onset ho).engines id).trans hk
  rw [Machine.notes, ho, ht]
  rcases hc with rfl | rfl <;>
    simp [World.notes, World.notedOn, hf, World.noted, hkw, Kernel.note?, hi]

/-- What is noted of a deed that the machine does by itself. -/
theorem turn_of_mem_notes {n : Note Action} (h : (id, n) ∈ m.notes x) (hn : n.OfTurn) :
    m.notes x = [(id, n)] ∧ ∃ k d, m.turn? x = some (id, d) ∧ m.world.kernel? id = some k ∧
      k.note? d = some n := by
  rcases mem_notes h with ⟨q, -, hq⟩ | ⟨_, _, rfl⟩ | ht
  · obtain ⟨g, -, -, rfl⟩ := note?_eq_some hq
    exact hn.elim
  · exact hn.elim
  · exact ht

end Machine

/-! ### Histories -/

namespace History

open Machine

variable {p : Command → Prop} {environment : Option String} {l l' : List Move} {id : KernelId}

/-- The session after the moves of a history, of which the newest comes first. -/
def after (environment : Option String) : List Move → Machine
  | [] => ⟨.pristine environment, [], none⟩
  | x :: l => (after environment l).make x

/-- Every move may be made when it is made. -/
def Permitted (p : Command → Prop) (environment : Option String) : List Move → Prop
  | [] => True
  | x :: l => (after environment l).Allows p x ∧ Permitted p environment l

/-- What was noted about a kernel, the newest note first. -/
def record (environment : Option String) (id : KernelId) : List Move → List (Note Action)
  | [] => []
  | x :: l => (notesAbout id ((after environment l).notes x)).reverse ++ record environment id l

theorem Permitted.suffix (h : Permitted p environment l) (hs : l' <:+ l) :
    Permitted p environment l' := by
  induction l with
  | nil =>
    obtain rfl := List.suffix_nil.1 hs
    trivial
  | cons x l ih =>
    rcases List.suffix_cons_iff.1 hs with rfl | hs
    · exact h
    · exact ih h.2 hs

/-- A record only grows. -/
theorem record_suffix (environment : Option String) (id : KernelId) (hs : l' <:+ l) :
    record environment id l' <:+ record environment id l := by
  induction l with
  | nil =>
    obtain rfl := List.suffix_nil.1 hs
    exact List.suffix_refl _
  | cons x l ih =>
    rcases List.suffix_cons_iff.1 hs with rfl | hs
    · exact List.suffix_refl _
    · exact (ih hs).trans (List.suffix_append _ _)

theorem Permitted.reached (h : Permitted p environment l) : Reached p (after environment l) := by
  induction l with
  | nil => exact .pristine environment
  | cons x l ih => exact (ih h.2).make h.1

theorem Permitted.sound (h : Permitted Command.Lawful environment l)
    {k : Kernel Action} (hk : (after environment l).world.kernel? id = some k) : k.Sound := by
  obtain ⟨watched, he⟩ := World.kernel?_eq_some.1 hk
  exact h.reached.sound.kernels he

theorem Permitted.id_eq (h : Permitted Command.Lawful environment l)
    {k : Kernel Action} (hk : (after environment l).world.kernel? id = some k) : k.id = id := by
  obtain ⟨watched, he⟩ := World.kernel?_eq_some.1 hk
  exact h.reached.sound.numbered _ _ _ he

/-- A kernel that was made stays. -/
theorem Permitted.stays (h : Permitted Command.Lawful environment l) (hs : l' <:+ l)
    (hk : ((after environment l').world.kernel? id).isSome) :
    ((after environment l).world.kernel? id).isSome := by
  induction l with
  | nil => rwa [List.suffix_nil.1 hs] at hk
  | cons x l ih =>
    rcases List.suffix_cons_iff.1 hs with rfl | hs
    · exact hk
    · exact (h.2.reached.lives h.1).stays (ih h.2 hs)

/-- A kernel has gone through what its record tells since an earlier moment. -/
theorem Permitted.undergoes_since (h : Permitted Command.Lawful environment l) (hs : l' <:+ l)
    {k : Kernel Action} (hk : (after environment l).world.Has id k) :
    ∃ k₀ r, (after environment l').world.Has id k₀ ∧
      record environment id l = r ++ record environment id l' ∧ k₀.Undergoes r.reverse k := by
  induction l generalizing k with
  | nil =>
    obtain rfl := List.suffix_nil.1 hs
    exact ⟨k, [], hk, rfl, .refl k⟩
  | cons x l ih =>
    rcases List.suffix_cons_iff.1 hs with rfl | hs
    · exact ⟨k, [], hk, rfl, .refl k⟩
    · obtain ⟨k₁, hk₁, hu⟩ := (h.2.reached.lives h.1).undergoes hk
      obtain ⟨k₀, r, hk₀, hr, hu₀⟩ := ih h.2 hs hk₁
      refine ⟨k₀, (notesAbout id ((after environment l).notes x)).reverse ++ r, hk₀, ?_, ?_⟩
      · rw [record, hr, List.append_assoc]
      · rw [List.reverse_append, List.reverse_reverse]
        exact hu₀.trans hu

/-- What every deed keeps holds of a kernel and its record if it held at an earlier moment. -/
theorem Permitted.keeps_since {I : Kernel Action → List (Note Action) → Prop}
    (h : Permitted Command.Lawful environment l) (hs : l' <:+ l) {k : Kernel Action}
    (hk : (after environment l).world.kernel? id = some k)
    (hI : ∀ k₀, (after environment l').world.Has id k₀ → I k₀ (record environment id l'))
    (hstep : ∀ {k k' : Kernel Action} {d : Deed Action} {r : List (Note Action)},
      k.Sound → k.Does d k' → k.Effect (k.note? d) k' → I k r →
        I k' ((k.note? d).toList ++ r)) : I k (record environment id l) := by
  obtain ⟨k₀, r, hk₀, hr, hu⟩ := h.undergoes_since hs (.inl hk)
  have hI := hu.keeps (hk₀.sound (h.suffix hs).reached.sound) hstep (hI k₀ hk₀)
  rwa [List.reverse_reverse, ← hr] at hI

/-- **What every deed keeps holds of each kernel and its record.** -/
theorem Permitted.keeps {I : Kernel Action → List (Note Action) → Prop}
    (h : Permitted Command.Lawful environment l) {k : Kernel Action}
    (hk : (after environment l).world.kernel? id = some k)
    (hfresh : ∀ systemId, I (.fresh id systemId) [])
    (hstep : ∀ {k k' : Kernel Action} {d : Deed Action} {r : List (Note Action)},
      k.Sound → k.Does d k' → k.Effect (k.note? d) k' → I k r →
        I k' ((k.note? d).toList ++ r)) : I k (record environment id l) := by
  refine h.keeps_since List.nil_suffix hk (fun k₀ hk₀ => ?_) hstep
  rcases hk₀ with hk₀ | ⟨-, systemId, rfl⟩
  · cases hk₀
  · exact hfresh systemId

end History

end EventSim
