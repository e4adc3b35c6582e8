import EventSim.Proofs.Machine.Sights
import EventSim.Proofs.Translation.Worlds

/-!
# Machines that carry out a program in another manner

The machine on the right carries out in a manner what the one on the left carries out.  It stands
still while the one on the left skips an event that it does not have, and takes a step more than the
other one when an event that does nothing takes the place of a stop.  All other steps are taken
together, and what is seen of the one is what is seen of the other, said in the manner.

A machine `Rests` if its run loop is about to end because of a stop, in a manner without stops:
there the ways part.

* `Renders.step`: the machine on the right keeps up with each step of the one on the left.
* `Renders.run`: **a whole call is seen alike**, as far as the one on the left does not rest.
-/

namespace EventSim

variable {μ : Manner} {T : Target → Prop} {ids : KernelId → Prop}

/-- What is seen of a step, in a manner. -/
def Sight.translate (μ : Manner) : Sight → Sight
  | .started payload now context => .started (payload.translate μ) now context
  | .unwound a now context => .unwound (a.translate μ) now context
  | .answered reply => .answered reply

/-- The sights are the same but for the manner, in worlds of which one renders the other. -/
structure RendersSight (μ : Manner) (T : Target → Prop) (ids : KernelId → Prop)
    (x y : Sight × World) : Prop where
  sight : y.1 = x.1.translate μ
  world : x.2.Renders μ T ids y.2

theorem map_sights {l l' : List (Sight × World)} (h : List.Forall₂ (RendersSight μ T ids) l l') :
    l'.map Prod.fst = (l.map Prod.fst).map (Sight.translate μ) := by
  induction h with
  | nil => rfl
  | cons hx _ ih => simp only [List.map_cons, ih, hx.sight]

/-- What is left of a call, in a manner. -/
inductive Frame.Renders (μ : Manner) (T : Target → Prop) (ids : KernelId → Prop) :
    Frame → Frame → Prop
  | body {left : List Command} (reporting : Bool) :
      (∀ x ∈ left, x.All (Command.Directed T)) →
      Renders μ T ids (.body reporting left) (.body reporting (translateAll μ left))
  | answering {left : List Command} (reporting : Bool) (command command' : String) :
      (∀ x ∈ left, x.All (Command.Directed T)) →
      Renders μ T ids (.answering reporting command left)
        (.answering reporting command' (translateAll μ left))
  | running {id : KernelId} : ids id → Renders μ T ids (.running id) (.running id)
  | destroying {id : KernelId} : ids id → Renders μ T ids (.destroying id) (.destroying id)

theorem Frame.Renders.lawful {f g : Frame} (h : f.Renders μ T ids g) :
    f.All Command.Lawful := by
  cases h with
  | body reporting hl => exact fun x hx => (hl x hx).imp fun _ hc => hc.lawful
  | answering reporting command command' hl => exact fun x hx => (hl x hx).imp fun _ hc => hc.lawful
  | running => trivial
  | destroying => trivial

theorem drives_translate (x : Command) : (x.translate μ).drives = x.drives := by
  cases x with
  | stopAfter | cancel | stop =>
    rw [Command.translate]
    split <;> rfl
  | _ => rfl

namespace Machine

/-- The machine `n` is in the middle of what `m` is in the middle of, in a manner. -/
structure Renders (μ : Manner) (T : Target → Prop) (ids : KernelId → Prop) (m n : Machine) :
    Prop where
  world : m.world.Renders μ T ids n.world
  stack : List.Forall₂ (Frame.Renders μ T ids) m.stack n.stack
  result : n.result = m.result

/-- A run loop is about to end because of a stop, which the manner does not know. -/
def Rests (μ : Manner) (m : Machine) : Prop :=
  μ.unstopped = true ∧ ∃ id rest watched k, m.stack = .running id :: rest ∧
    m.world.engine? id = some (.builtIn watched k) ∧ k.stopping = true

variable {w v : World} {id : KernelId} {s s' : List Frame} {result : Option (Except Panic Reply)}
  {m n : Machine}

/-! ### Ends of calls -/

theorem Renders.panic (h : w.Renders μ T ids v) (p : Panic) :
    Renders μ T ids (Machine.panic ⟨w, s, result⟩ p) (Machine.panic ⟨v, s', result⟩ p) :=
  ⟨h.forgetInjected, .nil, rfl⟩

theorem Renders.deliver (h : w.Renders μ T ids v) (hs : List.Forall₂ (Frame.Renders μ T ids) s s')
    (r : Reply) :
    Renders μ T ids (Machine.deliver ⟨w, s, result⟩ r) (Machine.deliver ⟨v, s', result⟩ r) := by
  cases hs with
  | nil => exact ⟨h, .nil, rfl⟩
  | cons hf hrest =>
    cases hf with
    | answering reporting command command' hl =>
      refine ⟨?_, .cons (.body reporting hl) hrest, rfl⟩
      cases reporting with
      | false => exact h
      | true => exact (h.log _).log' _
    | body reporting hl => exact ⟨h, .cons (.body reporting hl) hrest, rfl⟩
    | running hid => exact ⟨h, .cons (.running hid) hrest, rfl⟩
    | destroying hid => exact ⟨h, .cons (.destroying hid) hrest, rfl⟩

/-! ### Starts of calls -/

theorem Renders.startAction (h : w.Renders μ T ids v)
    (hs : List.Forall₂ (Frame.Renders μ T ids) s s') {a : Action} (ha : a.Directed T) :
    Renders μ T ids (Machine.startAction ⟨w, s, result⟩ a)
      (Machine.startAction ⟨v, s', result⟩ (a.translate μ)) := by
  have hbody : Frame.Renders μ T ids (.body a.reporting a.body)
      (.body (a.translate μ).reporting (a.translate μ).body) := by
    rw [Action.reporting_translate, Action.body_translate]
    exact .body _ (Action.all_iff.1 ha.2)
  unfold Machine.startAction
  dsimp only
  rw [Action.tag_translate, Action.target_translate]
  cases htag : a.tag with
  | none => exact ⟨h, .cons hbody hs, rfl⟩
  | some tag =>
    have ht : T a.target := ha.1.resolve_left fun hn => by
      rw [hn] at htag
      cases htag
    obtain ⟨now, context, hwn, hwc, hvn, hvc⟩ := h.present ht
    simp only [hwn, hwc, hvn, hvc]
    exact ⟨(h.log _).log' _, .cons hbody hs, rfl⟩

/-- A command that runs nothing has ended. -/
theorem Renders.conclude {x y : Command} (hx : x.drives = false) (hy : y.drives = false)
    (h : World.RendersEnd μ T ids (w.perform x) (v.perform y))
    (hs : List.Forall₂ (Frame.Renders μ T ids) s s') :
    Renders μ T ids (Machine.start ⟨w, s, result⟩ x) (Machine.start ⟨v, s', result⟩ y) := by
  rw [start_of_not_drives hx, start_of_not_drives hy]
  generalize w.perform x = r at h
  generalize v.perform y = r' at h
  obtain ⟨reply, w'⟩ := r
  obtain ⟨reply', v'⟩ := r'
  obtain ⟨hr, hm⟩ := h
  cases hr
  cases reply with
  | error p => exact .panic hm p
  | ok r => exact .deliver hm hs r

/-- **A command starts alike.** -/
theorem Renders.start (h : w.Renders μ T ids v) (s₀ : w.Sound)
    (hs : List.Forall₂ (Frame.Renders μ T ids) s s') {x : Command}
    (hx : x.All (Command.Directed T)) :
    Renders μ T ids (Machine.start ⟨w, s, result⟩ x)
      (Machine.start ⟨v, s', result⟩ (x.translate μ)) := by
  cases hd : x.drives with
  | false =>
    exact .conclude hd ((drives_translate x).trans hd) (.perform h s₀ hx) hs
  | true =>
    cases x with
    | run t =>
      obtain ⟨id, k, l, hid, hw, hv, hwk, hvl, hk⟩ := h.target hx.self
      rw [Command.translate]
      simp only [Machine.start, World.reach_of_find hw, World.reach_of_find hv, Machine.beginRun,
        hwk, hvl]
      exact ⟨h.setEngine hid hk.beginRun, .cons (.running hid) hs, rfl⟩
    | destroy t =>
      obtain ⟨id, k, l, hid, hw, hv, hwk, hvl, hk⟩ := h.target hx.self
      rw [Command.translate]
      simp only [Machine.start, World.reach_of_find hw, World.reach_of_find hv,
        Machine.beginDestroy, hwk, hvl, Bool.false_eq_true, if_false]
      exact ⟨h, .cons (.destroying hid) hs, rfl⟩
    | teardown | scenario => exact hx.self.elim
    | _ => cases hd

/-! ### Steps -/

/-- The machine `n` keeps up with the next step of `m`. -/
def KeepsUp (μ : Manner) (T : Target → Prop) (ids : KernelId → Prop) (m n : Machine) : Prop :=
  ∃ l n', n.Sees l n' ∧ List.Forall₂ (RendersSight μ T ids) m.glimpse l ∧
    Renders μ T ids m.step n'

theorem KeepsUp.together (hn : n.stack ≠ []) (hs : n.sight? = m.sight?.map (Sight.translate μ))
    (h : Renders μ T ids m.step n.step) : KeepsUp μ T ids m n := by
  refine ⟨_, _, .single hn, ?_, h⟩
  unfold glimpse
  rw [hs]
  cases m.sight? with
  | none => exact .nil
  | some x => exact .cons ⟨rfl, h.world⟩ .nil

/-- The machine `n` stands still. -/
theorem KeepsUp.still (hs : m.sight? = none) (h : Renders μ T ids m.step n) :
    KeepsUp μ T ids m n := by
  refine ⟨[], n, .refl n, ?_, h⟩
  rw [glimpse, hs]
  exact .nil

theorem lastSight?_eq (hs : List.Forall₂ (Frame.Renders μ T ids) s s') :
    lastSight? s' = (lastSight? s).map (Sight.translate μ) := by
  cases hs <;> rfl

/-- What the run loop of an unwatched kernel does next. -/
theorem step_running {k : Kernel Action} (hk : w.engine? id = some (.builtIn false k)) :
    Machine.step ⟨w, .running id :: s, result⟩ =
      match k.dequeue with
      | .idle => Machine.deliver ⟨w.setEngine id (.builtIn false k.endRun), s, result⟩ .done
      | .skipped payload k' =>
        ⟨(w.setEngine id (.builtIn false k')).releaseAll payload.action?.toList,
          .running id :: s, result⟩
      | .past payload k' =>
        Machine.panic ⟨(w.setEngine id (.builtIn false k')).releaseAll payload.action?.toList,
          .running id :: s, result⟩ .clockWentBack
      | .started e k' =>
        match e.payload with
        | .halt => ⟨w.setEngine id (.builtIn false k'.stop), .running id :: s, result⟩
        | .act a =>
          Machine.startAction ⟨w.setEngine id (.builtIn false k'), .running id :: s, result⟩ a := by
  cases hd : k.dequeue with
  | started e k' => cases hp : e.payload <;> simp only [Machine.step, Machine.stepRun, hk, hd, hp]
  | _ => simp only [Machine.step, Machine.stepRun, hk, hd]

theorem sight?_running {k : Kernel Action} (hk : w.engine? id = some (.builtIn false k)) :
    Machine.sight? ⟨w, .running id :: s, result⟩ =
      match k.dequeue with
      | .started e k => some (.started e.payload k.now k.context)
      | .idle => lastSight? s
      | .skipped .. | .past .. => none := by
  cases hd : k.dequeue <;> simp only [Machine.sight?, hk, hd]

/-- An event that does nothing starts and ends. -/
theorem sees_silent {k k' : Kernel Action} {e : Event (Payload Action)}
    (hk : w.engine? id = some (.builtIn false k)) (hd : k.dequeue = .started e k')
    (he : e.payload = .act (.silent [])) :
    Sees ⟨w, .running id :: s, result⟩
      [(.started e.payload k'.now k'.context, w.setEngine id (.builtIn false k'))]
      ⟨w.setEngine id (.builtIn false k'), .running id :: s, result⟩ := by
  have hstep : Machine.step ⟨w, .running id :: s, result⟩ =
      ⟨w.setEngine id (.builtIn false k'), .body false [] :: .running id :: s, result⟩ := by
    rw [step_running hk, hd]
    simp only [he]
    rfl
  have hsight : Machine.glimpse ⟨w, .running id :: s, result⟩ =
      [(.started e.payload k'.now k'.context, w.setEngine id (.builtIn false k'))] := by
    rw [glimpse, hstep, sight?_running hk, hd]
    rfl
  have hfirst := Sees.single (m := ⟨w, .running id :: s, result⟩) (List.cons_ne_nil _ _)
  rw [hsight, hstep] at hfirst
  have hsecond := Sees.single
    (m := ⟨w.setEngine id (.builtIn false k'), .body false [] :: .running id :: s, result⟩)
    (List.cons_ne_nil _ _)
  exact hfirst.trans hsecond

theorem KeepsUp.running (h : w.Renders μ T ids v) (s₀ : w.Sound) (hid : ids id)
    (hs : List.Forall₂ (Frame.Renders μ T ids) s s')
    (hr : ¬ Rests μ ⟨w, .running id :: s, result⟩) :
    KeepsUp μ T ids ⟨w, .running id :: s, result⟩ ⟨v, .running id :: s', result⟩ := by
  obtain ⟨k, l, hwk, hvl, hk⟩ := h.kernels id hid
  have hne : (⟨v, .running id :: s', result⟩ : Machine).stack ≠ [] := List.cons_ne_nil _ _
  have hstack : List.Forall₂ (Frame.Renders μ T ids) (.running id :: s) (.running id :: s') :=
    .cons (.running hid) hs
  have hstop : μ.unstopped = true → k.stopping = false := by
    intro hμ
    by_contra hst
    exact hr ⟨hμ, id, s, false, k, rfl, hwk, by simpa using hst⟩
  rcases hk.dequeue (s₀.kernels hwk) hstop with ⟨p, k', hd, hk'⟩ | hnext
  · -- the event is skipped that the kernel on the right does not have
    have hset := (h.setEngine hid hk').releaseAll p.action?.toList []
    rw [World.setEngine_of_engine? hvl] at hset
    refine .still ?_ ?_
    · rw [sight?_running hwk, hd]
    · rw [step_running hwk, hd]
      exact ⟨hset, hstack, rfl⟩
  · generalize hd : k.dequeue = d at hnext
    generalize hd' : l.dequeue = d' at hnext
    cases hnext with
    | idle =>
      refine .together hne ?_ ?_
      · rw [sight?_running hwk, sight?_running hvl, hd, hd']
        exact lastSight?_eq hs
      · rw [step_running hwk, step_running hvl, hd, hd']
        exact .deliver (h.setEngine hid hk.endRun) hs .done
    | skipped p hk' =>
      refine .together hne ?_ ?_
      · rw [sight?_running hwk, sight?_running hvl, hd, hd']
        rfl
      · rw [step_running hwk, step_running hvl, hd, hd']
        exact ⟨(h.setEngine hid hk').releaseAll _ _, hstack, rfl⟩
    | @started k' l' e ha hk' =>
      have hset := h.setEngine hid hk'
      have hsight : Machine.sight? ⟨v, .running id :: s', result⟩ =
          (Machine.sight? ⟨w, .running id :: s, result⟩).map (Sight.translate μ) := by
        rw [sight?_running hwk, sight?_running hvl, hd, hd']
        simp only [Event.map, hk'.now_eq, hk'.context_eq, Option.map_some, Sight.translate]
      cases hp : e.payload with
      | act a =>
        refine .together hne hsight ?_
        rw [step_running hwk, step_running hvl, hd, hd']
        simp only [Event.map, hp, Payload.translate]
        exact .startAction hset hstack (ha a hp)
      | halt =>
        cases hμ : μ.unstopped with
        | false =>
          refine .together hne hsight ?_
          rw [step_running hwk, step_running hvl, hd, hd']
          simp only [Event.map, hp, Payload.translate, hμ]
          exact ⟨h.setEngine hid (hk'.stop hμ), hstack, rfl⟩
        | true =>
          -- an event that does nothing starts in place of the stop, and ends with another step
          have hsilent : (e.map (Payload.translate μ)).payload = .act (.silent []) := by
            simp [Event.map, hp, Payload.translate, hμ]
          have hstep : Machine.step ⟨w, .running id :: s, result⟩ =
              ⟨w.setEngine id (.builtIn false k'.stop), .running id :: s, result⟩ := by
            rw [step_running hwk, hd]
            simp only [hp]
          have hworld := h.setEngine hid (hk'.stop_apart hμ)
          refine ⟨_, _, sees_silent hvl hd' hsilent, ?_, ?_⟩
          · rw [glimpse, hstep, sight?_running hwk, hd]
            refine .cons ⟨?_, hworld⟩ .nil
            simp only [Event.map, hk'.now_eq, hk'.context_eq, Sight.translate]
          · rw [hstep]
            exact ⟨hworld, hstack, rfl⟩

theorem KeepsUp.destroying (h : w.Renders μ T ids v) (hid : ids id)
    (hs : List.Forall₂ (Frame.Renders μ T ids) s s') :
    KeepsUp μ T ids ⟨w, .destroying id :: s, result⟩ ⟨v, .destroying id :: s', result⟩ := by
  obtain ⟨k, l, hwk, hvl, hk⟩ := h.kernels id hid
  have hstack : List.Forall₂ (Frame.Renders μ T ids) (.destroying id :: s)
      (.destroying id :: s') := .cons (.destroying hid) hs
  refine .together (List.cons_ne_nil _ _) ?_ ?_
  · simp only [sight?, hwk, hvl]
    cases hp : k.popTeardown with
    | none =>
      rw [hk.popTeardown_none hp]
      exact lastSight?_eq hs
    | some r =>
      obtain ⟨e, k'⟩ := r
      obtain ⟨-, l', hp', hk'⟩ := hk.popTeardown hp
      rw [hp']
      simp only [TeardownEvent.map, hk'.now_eq, hk'.context_eq, Option.map_some, Sight.translate]
  · simp only [Machine.step, stepDestroy, hwk, hvl]
    cases hp : k.popTeardown with
    | none =>
      rw [hk.popTeardown_none hp]
      exact .deliver ((h.setEngine hid hk.sweep).releaseAll _ _) hs .done
    | some r =>
      obtain ⟨e, k'⟩ := r
      obtain ⟨ha, l', hp', hk'⟩ := hk.popTeardown hp
      rw [hp']
      exact .startAction (h.setEngine hid hk') hstack ha

theorem KeepsUp.body (h : w.Renders μ T ids v) (s₀ : w.Sound)
    (hs : List.Forall₂ (Frame.Renders μ T ids) s s') (reporting : Bool) {x : Command}
    {left : List Command} (hx : x.All (Command.Directed T))
    (hl : ∀ x ∈ left, x.All (Command.Directed T)) :
    KeepsUp μ T ids ⟨w, .body reporting (x :: left) :: s, result⟩
      ⟨v, .body reporting (translateAll μ (x :: left)) :: s', result⟩ := by
  have hbegan {w : World} (e : Entry) (c : Bool) (hw : w.Sound) :
      (if c then w.log e else w).Sound := by
    cases c with
    | false => exact hw
    | true => exact hw.aside (World.aside_log w e)
  have hworld {w v : World} (h : w.Renders μ T ids v) (e e' : Entry) (c c' : Bool) :
      (if c then w.log e else w).Renders μ T ids (if c' then v.log e' else v) := by
    cases c <;> cases c' <;> first | exact h | exact h.log _ | exact h.log' _ |
      exact (h.log _).log' _
  have hframe : List.Forall₂ (Frame.Renders μ T ids) (.answering reporting x.name left :: s)
      (.answering reporting (x.translate μ).name (translateAll μ left) :: s') :=
    .cons (.answering reporting _ _ hl) hs
  refine .together (List.cons_ne_nil _ _) ?_ ?_
  · simp only [sight?, translateAll, drives_translate]
    split
    · rfl
    · simp only [Option.map_some, Sight.translate, (World.RendersEnd.perform h s₀ hx).reply]
  · simp only [Machine.step, translateAll]
    exact .start (hworld h _ _ _ _) (hbegan _ _ s₀) hframe hx

/-- **The machine on the right keeps up with each step of the one on the left.** -/
theorem Renders.step (h : Renders μ T ids m n) (s₀ : m.world.Sound) (hne : m.stack ≠ [])
    (hr : ¬ m.Rests μ) : KeepsUp μ T ids m n := by
  obtain ⟨w, stack, result⟩ := m
  obtain ⟨v, stack', result'⟩ := n
  obtain ⟨hw, hs, hres⟩ := h
  cases hres
  cases hs with
  | nil => exact absurd rfl hne
  | cons hf hrest =>
    cases hf with
    | @body left reporting hl =>
      cases left with
      | nil => exact .together (List.cons_ne_nil _ _) rfl ⟨hw, hrest, rfl⟩
      | cons x left =>
        obtain ⟨hx, hl⟩ := List.forall_mem_cons.1 hl
        exact .body hw s₀ hrest reporting hx hl
    | answering reporting command command' hl =>
      exact .together (List.cons_ne_nil _ _) rfl ⟨hw, .cons (.body reporting hl) hrest, rfl⟩
    | running hid => exact .running hw s₀ hid hrest hr
    | destroying hid => exact .destroying hw hid hrest

/-- The worlds stay sound. -/
theorem Renders.sound_step (h : Renders μ T ids m n) (s₀ : m.world.Sound) :
    m.step.world.Sound := by
  obtain ⟨w, stack, result⟩ := m
  obtain ⟨v, stack', result'⟩ := n
  obtain ⟨-, hs, -⟩ := h
  cases hs with
  | nil => exact s₀
  | cons hf hrest => exact s₀.evolves ((evolves_step _ _).mono fun x => hf.lawful.lawful)

/-! ### Whole calls -/

/-- **A call is seen alike** until it ends, or rests. -/
theorem Renders.run (h : Renders μ T ids m n) (s₀ : m.world.Sound) :
    ∃ l m' l' n', m.Sees l m' ∧ n.Sees l' n' ∧ List.Forall₂ (RendersSight μ T ids) l l' ∧
      Renders μ T ids m' n' ∧ m'.world.Sound ∧ (m'.stack = [] ∨ m'.Rests μ) := by
  induction hi : m.weight using Nat.strongRecOn generalizing m n with
  | ind i ih =>
    by_cases hne : m.stack = []
    · exact ⟨[], m, [], n, .refl m, .refl n, .nil, h, s₀, .inl hne⟩
    · by_cases hr : m.Rests μ
      · exact ⟨[], m, [], n, .refl m, .refl n, .nil, h, s₀, .inr hr⟩
      · have hlt := weight_step hne
        obtain ⟨l, n₁, hn, hl, h₁⟩ := h.step s₀ hne hr
        obtain ⟨l₁, m', l', n', hm', hn', hl', h', s', hend⟩ :=
          ih _ (hi ▸ hlt) h₁ (h.sound_step s₀) rfl
        exact ⟨_, m', _, n', .step hne hm', hn.trans hn', List.rel_append hl hl', h', s', hend⟩

/-- A manner that knows of stops never rests. -/
theorem not_rests (hμ : μ.unstopped = false) : ¬ m.Rests μ := by
  rintro ⟨hu, -⟩
  rw [hμ] at hu
  cases hu

theorem Renders.run_eq (h : Renders μ T ids m n) (s₀ : m.world.Sound)
    (hμ : μ.unstopped = false) :
    List.Forall₂ (RendersSight μ T ids) m.seen n.seen ∧ Renders μ T ids m.run n.run ∧
      m.run.world.Sound := by
  obtain ⟨l, m', l', n', hm, hn, hl, h', s', hend⟩ := h.run s₀
  have hstack := hend.resolve_right (not_rests hμ)
  have hstack' : n'.stack = [] := by
    have hs := h'.stack
    rw [hstack] at hs
    exact List.forall₂_nil_left_iff.1 hs
  obtain ⟨hseen, hrun⟩ := hm.ends hstack
  obtain ⟨hseen', hrun'⟩ := hn.ends hstack'
  rw [hseen, hseen', hrun, hrun']
  exact ⟨hl, h', s'⟩

end Machine

/-! ### Programs -/

/-- What is seen of the calls is the same but for the manner. -/
structure RendersScene (μ : Manner) (T : Target → Prop) (ids : KernelId → Prop) (x y : Scene) :
    Prop where
  seen : List.Forall₂ (RendersSight μ T ids) x.seen y.seen
  answer : y.answer = x.answer
  after : x.after.Renders μ T ids y.after

namespace World

variable {w v : World}

theorem Renders.ofCall (h : w.Renders μ T ids v) (s₀ : w.Sound) {x : Command}
    (hx : x.All (Command.Directed T)) :
    (Machine.ofCall w x).Renders μ T ids (Machine.ofCall v (x.translate μ)) ∧
      (Machine.ofCall w x).world.Sound :=
  ⟨.start h s₀ .nil hx,
    s₀.evolves ((Machine.evolves_start x).mono fun _ => hx.self.lawful.brings)⟩

/-- **A program is seen alike in either manner.** -/
theorem Renders.scenes (h : w.Renders μ T ids v) (s₀ : w.Sound) (hμ : μ.unstopped = false)
    {P : List Command} (hP : ∀ x ∈ P, x.All (Command.Directed T)) :
    List.Forall₂ (RendersScene μ T ids) (w.scenes P) (v.scenes (translateAll μ P)) := by
  induction P generalizing w v with
  | nil => exact .nil
  | cons x rest ih =>
    obtain ⟨hx, hrest⟩ := List.forall_mem_cons.1 hP
    obtain ⟨hcall, hsound⟩ := h.ofCall s₀ hx
    obtain ⟨hseen, hrun, hsound'⟩ := hcall.run_eq hsound hμ
    have hanswer : (v.call (x.translate μ)).1 = (w.call x).1 :=
      congrArg (fun r => r.getD (.ok .done)) hrun.result
    exact .cons ⟨hseen, hanswer, hrun.world⟩ (ih hrun.world hsound' hrest)

end World

end EventSim
