import EventSim.Proofs.Refusals.Calls
import EventSim.Proofs.World.Requests

/-!
# What starts was accepted

A chapter `Vouches` for an event if it tells that a call has brought the event and was answered its
handle.  Only such a call puts an event into a kernel (`stores_of_perform`), so **every event that
starts was vouched for before** (`World.grounded_story`): what a refused call brings never runs.
-/

namespace EventSim

/-- What the command puts into a kernel. -/
def Command.payload? : Command → Option (Payload Action)
  | .schedule _ _ _ a => some (.act a)
  | .stopAfter .. => some .halt
  | _ => none

/-- The chapter tells that a call has brought the event, and was answered its handle. -/
def Chapter.Vouches (x : Chapter) (id : KernelId) (i : Item Action) : Prop :=
  ∃ o c left h, x.incident = some (.ended o c left (.ok (.handle h))) ∧
    c.payload? = some i.payload ∧ h.owner = some id ∧ h.uid = i.uid

/-- If the chapter tells that an event starts, it was vouched for before. -/
def Chapter.Follows (x : Chapter) (past : List Chapter) : Prop :=
  ∀ id i now context, x.incident = some (.started id i now context) →
    ∃ y ∈ past, y.Vouches id i

/-- All events that start in the story were vouched for, in the story or in what is past. -/
def Grounded (past story : List Chapter) : Prop :=
  ∀ before x after, story = before ++ x :: after → x.Follows (past ++ before)

/-- All events that the kernels hold were vouched for. -/
def World.Vouched (past : List Chapter) (w : World) : Prop :=
  ∀ id watched k, w.engine? id = some (.builtIn watched k) →
    ∀ i ∈ k.items, ∃ y ∈ past, y.Vouches id i

section

variable {past S R : List Chapter} {x : Chapter}

theorem grounded_nil (past : List Chapter) : Grounded past [] :=
  fun before x after h => by simp at h

theorem Grounded.cons (hx : x.Follows past) (h : Grounded (past ++ [x]) S) :
    Grounded past (x :: S) := by
  intro before y after heq
  rcases List.cons_eq_append_iff.1 heq with ⟨rfl, hy⟩ | ⟨before, rfl, hS⟩
  · cases hy
    rwa [List.append_nil]
  · have hf := h before y after hS
    rwa [List.append_assoc, List.singleton_append] at hf

theorem Grounded.append (h : Grounded past S) (g : Grounded (past ++ S) R) :
    Grounded past (S ++ R) := by
  induction S generalizing past with
  | nil => rwa [List.append_nil] at g
  | cons x S ih =>
    refine .cons (by simpa using h [] x S rfl) (ih (fun before y after heq => ?_) ?_)
    · have hf := h (x :: before) y after (congrArg _ heq)
      rwa [List.append_assoc, List.singleton_append]
    · rwa [List.append_assoc, List.singleton_append]

end

namespace Kernel

variable {k k' : Kernel Action} {d : Deed Action} {h : Handle} {payload : Payload Action}

/-- What is accepted has the number of its handle. -/
theorem Issues.accepted (hi : k.Issues d h k') (ht : d.taken = [payload]) :
    d.accepted = [⟨h.uid, payload⟩] := by
  cases hi <;> cases ht <;> rfl

end Kernel

/-! ### What calls put into kernels -/

/-- Only a scheduling call puts something into a kernel. -/
theorem Command.accepted_of_calls {w : World} {c : Command} {d : Deed Action} (hc : c.OnKernel)
    (hp : c.payload? = none) (hd : c.Calls w d) : d.accepted = [] := by
  have hcarries (a : Action) : ¬ c.Carries a := by
    intro ha
    cases c with
    | schedule => cases hp
    | scheduleEach | chain => exact hc.elim
    | _ => exact ha.elim
  cases d with
  | stored key payload =>
    cases payload with
    | halt =>
      obtain ⟨t, delay, name, rfl⟩ := hd
      cases hp
    | act a => exact (hcarries a hd).elim
  | registered e => exact (hcarries e.action hd).elim
  | _ => rfl

namespace World

variable {w w' : World} {id : KernelId} {watched : Bool} {k' : Kernel Action} {i : Item Action}
  {c : Command} {past : List Chapter} {x : Chapter}

/-- The event was in the books of a kernel. -/
def Stores (w : World) (id : KernelId) (i : Item Action) : Prop :=
  ∃ watched k, w.engine? id = some (.builtIn watched k) ∧ i ∈ k.items

/-- Where nothing is accepted, there are no events but those that were there before. -/
theorem Courses.stores {p : KernelId → Deed Action → Prop} (h : Courses p w w') (t : w.Tallied)
    (hp : ∀ id d, p id d → d.accepted = []) (hi : w'.Stores id i) : w.Stores id i := by
  obtain ⟨watched, k', hk', hi⟩ := hi
  rcases h.back hk' with ⟨k, hk, hc⟩ | ⟨systemId, hc⟩
  · exact ⟨watched, k, hk, hc.items (t _ _ _ hk).2 (hp id) hi⟩
  · exact absurd (hc.items (Kernel.tallied_fresh id systemId) (hp id) hi) List.not_mem_nil

theorem stores_congr (h : w'.engines = w.engines) : w'.Stores id i ↔ w.Stores id i := by
  rw [Stores, Stores, engine?, h]
  rfl

/-- A scheduling call on a kernel accepts an event under the handle that it answers, or nothing. -/
theorem stores_of_outcome {q : Request} (h : q.Outcome) (ht : q.target.IsKernel)
    (t : q.before.Tallied) (hi : q.after.Stores id i) :
    q.before.Stores id i ∨ ∃ g, q.reply = .ok (.handle g) ∧ q.payload = i.payload ∧
      g.owner = some id ∧ g.uid = i.uid := by
  have hreach {id : KernelId} {v : World} (hr : q.before.reach q.target = .ok (id, v)) :
      v = q.before := by
    rcases reach_of_isKernel ht q.before with ⟨p, hp⟩ | ⟨id', hr'⟩
    · rw [hp] at hr
      cases hr
    · rw [hr'] at hr
      cases hr
      rfl
  have hleft (he : q.after.engines = q.before.engines) : q.before.Stores id i :=
    (stores_congr he).1 hi
  cases h with
  | unreached _ _ ha =>
    refine .inl (hleft ?_)
    rw [ha]
    exact (aside_releaseAll _ _).engines
  | absent hr _ _ ha =>
    refine .inl (hleft ?_)
    rw [ha, hreach hr]
  | refused trace hr _ _ ha =>
    refine .inl (hleft ?_)
    rw [ha, hreach hr]
    exact (aside_releaseAll _ _).engines
  | fixed trace name hr _ _ ha =>
    refine .inl (hleft ?_)
    rw [ha, hreach hr]
    exact (aside_releaseAll _ _).engines
  | accepted trace name hr hk hissues htaken _ hreply ha =>
    cases hreach hr
    obtain ⟨hid, htallied⟩ := t _ _ _ hk
    obtain ⟨watched, l, hl, hi⟩ := hi
    rw [ha] at hl
    rcases engine?_setEngine (w := { q.before with trace := trace }) hl with ⟨rfl, he⟩ | ⟨-, hl⟩
    · cases he
      have hb := (htallied.balance (.issued hissues)).subset (List.mem_append_right _ hi)
      rw [hissues.accepted htaken] at hb
      rcases List.mem_append.1 hb with hnew | hold
      · cases List.mem_singleton.1 hnew
        exact .inr ⟨_, hreply, rfl, hissues.names.1.trans (congrArg some hid), rfl⟩
      · exact .inl ⟨_, _, hk, hold⟩
    · exact .inl ⟨watched, l, hl, hi⟩

/-- **A call puts no event into a kernel but one whose handle it answers.** -/
theorem stores_of_perform (t : w.Tallied) (hc : c.OnKernel) (hi : (w.perform c).2.Stores id i) :
    w.Stores id i ∨ ∃ g, (w.perform c).1 = .ok (.handle g) ∧ c.payload? = some i.payload ∧
      g.owner = some id ∧ g.uid = i.uid := by
  cases hp : c.payload? with
  | none =>
    have hcourses : Courses (fun _ d => d.accepted = []) w (w.perform c).2 :=
      .evolves (fun _ _ => rfl) (evolves_perform w c) fun _ _ => Command.accepted_of_calls hc hp
    exact .inl (hcourses.stores t (fun _ _ hd => hd) hi)
  | some payload =>
    cases c with
    | schedule target timing name a =>
      cases hp
      rcases stores_of_outcome (outcome_requestAction w target timing name a) hc.1 t hi with
        hold | ⟨g, hreply, hpayload, hg⟩
      · exact .inl hold
      · exact .inr ⟨g, hreply, congrArg some hpayload, hg⟩
    | stopAfter target delay name =>
      cases hp
      rcases stores_of_outcome (outcome_requestStop w target delay name) hc t hi with
        hold | ⟨g, hreply, hpayload, hg⟩
      · exact .inl hold
      · exact .inr ⟨g, hreply, congrArg some hpayload, hg⟩
    | _ => cases hp

/-! ### Vouchers -/

theorem Vouched.mono {more : List Chapter} (h : w.Vouched past) : w.Vouched (past ++ more) :=
  fun id watched k hk i hi => by
    obtain ⟨y, hy, hv⟩ := h id watched k hk i hi
    exact ⟨y, List.mem_append_left _ hy, hv⟩

/-- Who holds no events but those that were there before or that a chapter vouches for. -/
theorem Vouched.extend (h : w.Vouched past)
    (hi : ∀ id i, w'.Stores id i → w.Stores id i ∨ x.Vouches id i) : w'.Vouched (past ++ [x]) := by
  intro id watched k' hk' i hmem
  rcases hi id i ⟨watched, k', hk', hmem⟩ with ⟨watched', k, hk, hold⟩ | hnew
  · obtain ⟨y, hy, hv⟩ := h id watched' k hk i hold
    exact ⟨y, List.mem_append_left _ hy, hv⟩
  · exact ⟨x, List.mem_append_right _ List.mem_cons_self, hnew⟩

end World

namespace Machine

open World (Courses)

variable {m : Machine} {w : World} {stack : List Frame} {result : Option (Except Panic Reply)}
  {past : List Chapter} {c : Command} {events : List (KernelId × Nat)} {id : KernelId}
  {i : Item Action}

theorem engines_start (hd : c.drives = false) :
    (start ⟨w, stack, result⟩ c).world.engines = (w.perform c).2.engines := by
  rw [start_of_not_drives hd]
  cases w.perform c with
  | mk reply v =>
    cases reply with
    | error p => rfl
    | ok r => exact (aside_deliver r).engines

/-- No step but that of a scheduling call puts anything into a kernel. -/
theorem accepted_of_brings {f : Frame} {d : Deed Action} (hf : f.OnKernel)
    (hn : ∀ c, f.next? = some c → c.payload? = none) (hb : f.Brings w (.did id d)) :
    d.accepted = [] := by
  cases f with
  | body reporting left =>
    rcases left with _ | ⟨c, left⟩
    · cases hb
    · exact Command.accepted_of_calls (List.forall_mem_cons.1 hf).1.self (hn c rfl) hb
  | running j =>
    rcases hb with hb | ⟨d', hd, he⟩
    · exact hb.elim
    · cases he
      cases d <;> first | rfl | exact hd.elim
  | destroying j =>
    rcases hb with hb | ⟨d', hd, he⟩
    · exact hb.elim
    · cases he
      cases d <;> first | rfl | exact hd.elim
  | answering => cases hb
  | clearing | scenario => exact hf.elim

theorem payload?_of_drives (hd : c.drives = true) : c.payload? = none := by
  cases c <;> first | rfl | cases hd

/-- **A step puts no event into a kernel but one that its chapter vouches for.** -/
theorem stores_of_step (ho : m.OnKernel) (t : m.world.Tallied) (hi : m.step.world.Stores id i) :
    m.world.Stores id i ∨ (m.chapter events).Vouches id i := by
  obtain ⟨w, stack, result⟩ := m
  rcases stack with _ | ⟨f, rest⟩
  · exact .inl hi
  · have hf := (List.forall_mem_cons.1 ho.waiting).1
    by_cases hn : ∀ c, f.next? = some c → c.drives = true
    · have hcourses : Courses (fun _ d => d.accepted = []) w
          (step ⟨w, f :: rest, result⟩).world :=
        .evolves (fun _ _ => rfl) (evolves_step f rest) fun _ _ =>
          accepted_of_brings hf fun c hc => payload?_of_drives (hn c hc)
      exact .inl (hcourses.stores t (fun _ _ hd => hd) hi)
    · obtain ⟨c, hc⟩ := not_forall.1 hn
      obtain ⟨hc, hd⟩ := Classical.not_imp.1 hc
      have hd := Bool.eq_false_iff.2 hd
      cases f with
      | body reporting left =>
        rcases left with _ | ⟨c', left⟩
        · cases hc
        · cases hc
          have hx := (List.forall_mem_cons.1 hf).1.self
          have hengines : (step ⟨w, .body reporting (c :: left) :: rest, result⟩).world.engines =
              (w.perform c).2.engines := by
            rw [step]
            dsimp only
            rw [hx.settles_eq_false hd, Bool.and_false, if_neg Bool.false_ne_true, engines_start hd]
          have hincident :
              (chapter ⟨w, .body reporting (c :: left) :: rest, result⟩ events).incident =
                some (.ended events.head? c left (w.perform c).1) := by
            dsimp only [chapter, incident?]
            rw [hd, if_neg Bool.false_ne_true]
          rcases World.stores_of_perform t hx ((World.stores_congr hengines).1 hi) with
            hold | ⟨g, hreply, hg⟩
          · exact .inl hold
          · exact .inr ⟨_, c, left, g, hreply ▸ hincident, hg⟩
      | scenario => exact hf.elim
      | _ => cases hc

/-- An event that starts was in the books. -/
theorem stores_of_started {now : Time} {context : Context} (t : m.world.Tallied)
    (h : m.incident? events = some (.started id i now context)) : m.world.Stores id i := by
  have hoccurs := m.occurs events
  rw [h] at hoccurs
  cases hoccurs with
  | started _ _ hk hd ha hi =>
    obtain ⟨hid, ht⟩ := t _ _ _ hk
    rw [hd.id_eq, hid]
    exact ⟨_, _, hk, (ht.spends hd ha hi).1⟩

/-! ### Stories -/

theorem follows_chapter (t : m.world.Tallied) (h : m.world.Vouched past) :
    (m.chapter events).Follows past := by
  intro id i now context hi
  obtain ⟨watched, k, hk, hmem⟩ := stores_of_started t hi
  exact h id watched k hk i hmem

/-- Whatever starts in a call was vouched for, and so is what waits after it. -/
theorem grounded_story (ho : m.OnKernel) (t : m.world.Tallied) (h : m.world.Vouched past)
    (n : Nat) (events : List (KernelId × Nat)) :
    Grounded past (m.story n events) ∧ (m.steps n).world.Vouched (past ++ m.story n events) := by
  induction n generalizing m past events with
  | zero => exact ⟨grounded_nil past, h.mono⟩
  | succ n ih =>
    rw [story, Machine.steps]
    split
    · exact ⟨grounded_nil past, h.mono⟩
    · have hstep : m.step.world.Vouched (past ++ [m.chapter events]) :=
        h.extend fun id i => stores_of_step ho t
      obtain ⟨hgrounded, hafter⟩ := ih ho.step ((courses_step m).tallied t) hstep _
      refine ⟨.cons (follows_chapter t h) hgrounded, ?_⟩
      rwa [List.append_assoc, List.singleton_append] at hafter

end Machine

namespace World

variable {w : World} {past : List Chapter} {c : Command} {P : List Command}

theorem stack_ofCall (hd : c.drives = false) : (Machine.ofCall w c).stack = [] := by
  rw [Machine.ofCall, Machine.start_of_not_drives hd]
  split <;> rfl

/-- The end of a call lets nothing start. -/
theorem follows_ending (rest : List Command) : (w.ending c rest).Follows past :=
  fun _ _ _ _ hi => by cases hi

/-- **Whatever starts in a program was vouched for before.** -/
theorem grounded_story (hw : w.Holds Action.OnKernel) (t : w.Tallied) (h : w.Vouched past)
    (hP : ∀ c ∈ P, c.All Command.OnKernel) : Grounded past (w.story P) := by
  induction P generalizing w past with
  | nil => exact grounded_nil past
  | cons c rest ih =>
    obtain ⟨hc, hrest⟩ := List.forall_mem_cons.1 hP
    have hcall : Grounded past ((Machine.ofCall w c).story (Machine.ofCall w c).weight []) ∧
        (w.call c).2.Vouched (past ++
          (Machine.ofCall w c).story (Machine.ofCall w c).weight [] ++ [w.ending c rest]) := by
      cases hd : c.drives with
      | true =>
        have hstart : Courses (fun _ d => d.accepted = []) w (Machine.ofCall w c).world :=
          .evolves (fun _ _ => rfl) (Machine.evolves_start c) fun _ _ =>
            Command.accepted_of_calls hc.self (Machine.payload?_of_drives hd)
        have hv : (Machine.ofCall w c).world.Vouched past := fun id watched k hk i hi => by
          obtain ⟨watched', k', hk', hi'⟩ := hstart.stores t (fun _ _ hd => hd) ⟨watched, k, hk, hi⟩
          exact h id watched' k' hk' i hi'
        obtain ⟨hgrounded, hafter⟩ := Machine.grounded_story (Machine.onKernel_ofCall hw hc)
          (hstart.tallied t) hv (Machine.ofCall w c).weight []
        exact ⟨hgrounded, hafter.mono⟩
      | false =>
        have hstack := stack_ofCall (w := w) hd
        have hafter : (w.call c).2.engines = (w.perform c).2.engines := by
          show ((Machine.ofCall w c).steps _).world.engines = _
          rw [Machine.steps_of_stack hstack]
          exact Machine.engines_start hd
        rw [Machine.story_of_stack hstack, List.append_nil]
        refine ⟨grounded_nil past, h.extend fun id i hi => ?_⟩
        rcases stores_of_perform t hc.self ((stores_congr hafter).1 hi) with
          hold | ⟨g, hreply, hg⟩
        · exact .inl hold
        · have hincident : (w.ending c rest).incident =
              some (.ended none c rest (.ok (.handle g))) := by
            rw [ending, reply_of_not_drives hd, hreply]
          exact .inr ⟨none, c, rest, g, hincident, hg⟩
    exact hcall.1.append (.cons (follows_ending rest)
      (ih (holds_call hw hc) ((courses_call w c).tallied t) hcall.2 hrest))

end World

end EventSim
