import EventSim.Proofs.Machine.Carries

/-!
# Moves of a session as the facade sees them

For the slot and the printers, most of what a session does is the same: actions and run loops come
and go on the stack, and the facade is left alone or finds itself a kernel.  Only the two ends of a
teardown differ: when it begins, the printers go, and when it ends, so does the kernel.

A `Mark` is what remains of a frame if only teardowns are of interest.  `Turns` lists what one move
can do to the marks, the slot and the printers, and `Machine.turns_step` and `Machine.turns_call`
show that the list is complete.
-/

namespace EventSim

/-- What a frame is to a teardown. -/
inductive Mark where
  | plain
  | destroying (id : KernelId)
  | clearing (found : KernelId)

/-- What a frame is to a teardown. -/
def Frame.mark : Frame → Mark
  | .destroying id => .destroying id
  | .clearing found => .clearing found
  | .body .. | .answering .. | .running _ | .scenario .. => .plain

/-- The topmost frame is not the end of a teardown. -/
def Open (s : List Mark) : Prop := ∀ found rest, s ≠ .clearing found :: rest

/-- The happening leaves the facade alone or builds a kernel for it, unless a command that starts
with the move installs a printer. -/
def Calm (starts : Command → Prop) : Happening → Prop
  | .vacated | .unprinted => False
  | .printed => ∃ part printer, starts (.printing (.install part printer))
  | _ => True

/-- What a move can do to the marks as long as no teardown begins or ends. -/
inductive Shifts (starts : Command → Prop) : List Mark → List Mark → Prop
  | panicked {s : List Mark} : Open s → Shifts starts s []
  | same {s : List Mark} : Open s → Shifts starts s s
  | pushed {s : List Mark} : Open s → Shifts starts s (.plain :: s)
  | popped (s : List Mark) : Shifts starts (.plain :: s) s
  | destroys {t : Target} {s : List Mark} (id : KernelId) :
      starts (.destroy t) → Open s → Shifts starts s (.destroying id :: s)
  | destroyed (id : KernelId) (s : List Mark) : Shifts starts (.destroying id :: s) s

/-- The marks of a stack. -/
def marks (stack : List Frame) : List Mark := stack.map Frame.mark

/-- The engine is a built-in kernel. -/
def World.HasKernel (w : World) (id : KernelId) : Prop :=
  ∃ watched k, w.engine? id = some (.builtIn watched k)

/-- What a move from the world `w` and the marks `s` to the machine `n` can be. -/
inductive Turns (starts : Command → Prop) (w : World) (s : List Mark) (n : Machine) : Prop
  | shifted : World.Evolves (Calm starts) w n.world → Shifts starts s (marks n.stack) →
      Turns starts w s n
  /-- A teardown begins: the printers go. -/
  | torn {id : KernelId} {below : List Mark} :
      w.slot = some id → n.world.slot = some id → n.world.printers = .none →
      n.world.engines = w.engines → Open s → below = s ∨ below = .plain :: s →
      marks n.stack = .clearing id :: below ∧ ¬ w.HasKernel id ∨
        marks n.stack = .destroying id :: .clearing id :: below →
      Turns starts w s n
  /-- A teardown ends: the slot is cleared. -/
  | cleared (found : KernelId) : s = .clearing found :: marks n.stack → n.world.slot = none →
      n.world.printers = w.printers → Turns starts w s n

variable {w w' : World} {s : List Mark} {n : Machine} {stack : List Frame}
  {result : Option (Except Panic Reply)} {starts starts' : Command → Prop}

/-! ### Marks -/

theorem open_nil : Open [] := fun _ _ h => by cases h

theorem open_plain (s : List Mark) : Open (.plain :: s) := fun _ _ h => by cases h

theorem open_destroying (id : KernelId) (s : List Mark) : Open (.destroying id :: s) :=
  fun _ _ h => by cases h

theorem calm_aside : Calm starts .aside := trivial

theorem calm_of_building {x : Happening} (h : World.Building x) : Calm starts x := by
  cases x <;> first | exact h.elim | trivial

theorem Calm.mono (h : ∀ c, starts c → starts' c) {x : Happening} (hx : Calm starts x) :
    Calm starts' x := by
  cases x with
  | printed =>
    obtain ⟨part, printer, hs⟩ := hx
    exact ⟨part, printer, h _ hs⟩
  | _ => exact hx

theorem Shifts.mono (h : ∀ c, starts c → starts' c) {s' : List Mark} (hs : Shifts starts s s') :
    Shifts starts' s s' := by
  cases hs with
  | panicked ho => exact .panicked ho
  | same ho => exact .same ho
  | pushed ho => exact .pushed ho
  | popped => exact .popped _
  | destroys id hd ho => exact .destroys id (h _ hd) ho
  | destroyed id => exact .destroyed id _

theorem Turns.mono (h : ∀ c, starts c → starts' c) (ht : Turns starts w s n) :
    Turns starts' w s n := by
  cases ht with
  | shifted hw hs => exact .shifted (hw.mono fun x => Calm.mono h) (hs.mono h)
  | torn hs hs' hp he ho hb hm => exact .torn hs hs' hp he ho hb hm
  | cleared found hs hn hp => exact .cleared found hs hn hp

/-- What was done aside before a move does not count. -/
theorem Turns.of_aside (ha : w.Aside w') (ht : Turns starts w' s n) : Turns starts w s n := by
  cases ht with
  | shifted hw hs => exact .shifted ((World.Evolves.aside calm_aside ha).trans hw) hs
  | torn hs hs' hp he ho hb hm =>
    refine .torn (ha.slot ▸ hs) hs' hp (he.trans ha.engines) ho hb ?_
    unfold World.HasKernel World.engine? at hm ⊢
    rwa [ha.engines] at hm
  | cleared found hs hn hp => exact .cleared found hs hn (hp.trans ha.printers)

/-- The end of a teardown can be told from its mark. -/
theorem eq_clearing_of_marks {found : KernelId} (h : marks stack = .clearing found :: s) :
    ∃ rest, stack = .clearing found :: rest ∧ marks rest = s := by
  cases stack with
  | nil => cases h
  | cons f rest =>
    obtain ⟨hf, hrest⟩ := List.cons.inj h
    cases f with
    | clearing =>
      cases hf
      exact ⟨rest, rfl, hrest⟩
    | _ => cases hf

theorem not_open_clearing (found : KernelId) (s : List Mark) : ¬ Open (.clearing found :: s) :=
  fun ho => ho found s rfl

/-- From the end of a teardown there is but one way to go. -/
theorem Turns.ends {found : KernelId} (h : Turns starts w (.clearing found :: s) n) :
    marks n.stack = s ∧ n.world.slot = none ∧ n.world.printers = w.printers := by
  have hno := not_open_clearing found s
  cases h with
  | shifted _ hs =>
    generalize marks n.stack = s' at hs
    cases hs with
    | panicked ho => exact (hno ho).elim
    | same ho => exact (hno ho).elim
    | pushed ho => exact (hno ho).elim
    | destroys _ _ ho => exact (hno ho).elim
  | torn _ _ _ _ ho => exact (hno ho).elim
  | cleared _ hs hslot hprinters =>
    cases hs
    exact ⟨rfl, hslot, hprinters⟩

namespace Machine

open World (Evolves)

/-! ### Ends and starts of calls -/

theorem marks_deliver (r : Reply) :
    marks (deliver ⟨w, stack, result⟩ r).stack = marks stack := by
  unfold deliver
  dsimp only
  split
  · rfl
  · rfl
  · split <;> rfl
  · rfl

theorem turns_panic (p : Panic) (h : Evolves (Calm starts) w w') (ho : Open s) :
    Turns starts w s (panic ⟨w', stack, result⟩ p) :=
  .shifted (h.trans (.aside calm_aside (aside_panic p))) (.panicked ho)

theorem turns_deliver (r : Reply) (h : Evolves (Calm starts) w w')
    (hs : Shifts starts s (marks stack)) : Turns starts w s (deliver ⟨w', stack, result⟩ r) :=
  .shifted (h.trans (.aside calm_aside (aside_deliver r))) (by rwa [marks_deliver])

theorem turns_startAction (a : Action) (h : Evolves (Calm starts) w w') (ho : Open (marks stack)) :
    Turns starts w (marks stack) (startAction ⟨w', stack, result⟩ a) := by
  refine .shifted (h.trans ((evolves_startAction a).mono fun x => calm_of_building)) ?_
  rcases stack_startAction w' stack result a with hs | ⟨hs, -⟩
  · rw [hs]
    exact .pushed ho
  · rw [hs]
    exact .panicked ho

theorem turns_beginRun (id : KernelId) (h : Evolves (Calm starts) w w') (ho : Open (marks stack)) :
    Turns starts w (marks stack) (beginRun ⟨w', stack, result⟩ id) := by
  have hev : Evolves (Calm starts) w' (beginRun ⟨w', stack, result⟩ id).world := by
    refine (evolves_beginRun id).mono ?_
    rintro x (rfl | rfl) <;> trivial
  refine .shifted (h.trans hev) ?_
  unfold beginRun
  split
  · exact .pushed ho
  · rw [marks_deliver]
    exact .same ho

theorem marks_beginDestroy (w : World) (stack : List Frame) (result : Option (Except Panic Reply))
    (id : KernelId) :
    marks (beginDestroy ⟨w, stack, result⟩ id).stack = marks stack ∧ ¬ w.HasKernel id ∨
      marks (beginDestroy ⟨w, stack, result⟩ id).stack = .destroying id :: marks stack := by
  unfold beginDestroy
  split
  · exact .inr rfl
  · rename_i hno
    refine .inl ⟨marks_deliver _, ?_⟩
    rintro ⟨watched, k, hk⟩
    exact hno watched k hk

theorem turns_beginDestroy {t : Target} (id : KernelId) (h : Evolves (Calm starts) w w')
    (hd : starts (.destroy t)) (ho : Open (marks stack)) :
    Turns starts w (marks stack) (beginDestroy ⟨w', stack, result⟩ id) := by
  refine .shifted (h.trans (.aside calm_aside (aside_beginDestroy id))) ?_
  rcases marks_beginDestroy w' stack result id with ⟨hm, -⟩ | hm
  · rw [hm]
    exact .same ho
  · rw [hm]
    exact .destroys id hd ho

theorem turns_beginTeardown (ho : Open s) (hb : marks stack = s ∨ marks stack = .plain :: s) :
    Turns starts w s (beginTeardown ⟨w, stack, result⟩) := by
  unfold beginTeardown
  split
  · refine turns_deliver _ (.refl _ _) ?_
    rcases hb with hb | hb
    · rw [hb]
      exact .same ho
    · rw [hb]
      exact .pushed ho
  · rename_i id hs
    let v : World := { w with printers := .none }
    have ha : v.Aside (beginDestroy ⟨v, .clearing id :: stack, result⟩ id).world :=
      aside_beginDestroy id
    refine .torn hs (ha.slot.trans hs) ha.printers ha.engines ho hb ?_
    exact marks_beginDestroy v (.clearing id :: stack) result id

theorem turns_start (c : Command) (ho : Open (marks stack)) :
    Turns (· = c) w (marks stack) (start ⟨w, stack, result⟩ c) := by
  unfold start
  split
  · split
    · exact turns_panic _ (.refl _ _) ho
    · rename_i hr
      exact turns_beginRun _ ((World.evolves_reach hr).mono fun x => calm_of_building) ho
  · split
    · exact turns_panic _ (.refl _ _) ho
    · rename_i hr
      exact turns_beginDestroy _ ((World.evolves_reach hr).mono fun x => calm_of_building) rfl ho
  · exact turns_beginTeardown ho (.inl rfl)
  · split
    · exact turns_deliver _ (.refl _ _) (.same ho)
    · exact turns_beginTeardown ho (.inr rfl)
  · rename_i hteardown hscenario
    have h : Evolves (Calm (· = c)) w (w.perform c).2 := by
      refine (World.evolves_perform w c).mono fun x hx => ?_
      cases x with
      | unprinted =>
        rcases hx with rfl | ⟨request, rfl⟩
        · exact (hteardown rfl).elim
        · exact (hscenario request rfl).elim
      | printed =>
        obtain ⟨part, printer, rfl⟩ := hx
        exact ⟨part, printer, rfl⟩
      | vacated => exact hx
      | _ => trivial
    split
    · rename_i hp
      rw [hp] at h
      exact turns_panic _ h ho
    · rename_i hp
      rw [hp] at h
      exact turns_deliver _ h (.same ho)

/-! ### Steps and calls -/

/-- The next step starts the command `c`. -/
def Starts (m : Machine) (c : Command) : Prop :=
  match m.stack with
  | .body _ (c' :: _) :: _ => c' = c
  | .scenario _ (.probing _ (probe :: _) _) :: _ => probe.command = c
  | _ => False

theorem turns_stepRun {id : KernelId} {rest : List Frame} :
    Turns starts w (.plain :: marks rest) (stepRun ⟨w, .running id :: rest, result⟩ id rest) := by
  have ho : Open (marks (.running id :: rest)) := open_plain _
  have hdid {k k' : Kernel Action} {watched : Bool} {d : Deed Action}
      (hk : w.engine? id = some (.builtIn watched k)) (hd : k.Does d k') (hp : w.Permits d) :
      Evolves (Calm starts) w (w.setEngine id (.builtIn watched k')) :=
    .single (.did hk hd hp) trivial
  unfold stepRun
  split
  · rename_i watched k hk
    split
    · exact turns_deliver _ (hdid hk (.ended k) trivial) (.popped _)
    · rename_i hq
      refine .shifted ((hdid hk (.skipped hq) trivial).trans ?_) (.same ho)
      exact .aside calm_aside (World.aside_releaseAll _ _)
    · rename_i hq
      refine turns_panic _ ((hdid hk (.strayed hq) trivial).trans ?_) ho
      exact .aside calm_aside (World.aside_releaseAll _ _)
    · rename_i e k' hq
      split
      · refine .shifted ((hdid hk (.started hq) trivial).trans ?_) (.same ho)
        have hk' := World.engine?_setEngine_self hk (.builtIn watched k')
        have h := World.Happens.did hk' (.stopped k') trivial
        rw [World.setEngine_setEngine] at h
        exact .single h trivial
      · exact turns_startAction _ (hdid hk (.started hq) trivial) ho
  · exact turns_deliver _ (.refl _ _) (.popped _)

theorem turns_stepDestroy {id : KernelId} {rest : List Frame} :
    Turns starts w (.destroying id :: marks rest)
      (stepDestroy ⟨w, .destroying id :: rest, result⟩ id rest) := by
  have ho : Open (marks (.destroying id :: rest)) := open_destroying id _
  unfold stepDestroy
  split
  · rename_i watched k hk
    split
    · rename_i hq
      exact turns_startAction _ (.single (.did hk (.unwound hq) trivial) trivial) ho
    · rename_i hq
      have ht := Kernel.popTeardown_eq_none.1 hq
      refine turns_deliver _ (Evolves.trans (.single (.did hk (.swept k ht) trivial) trivial) ?_)
        (.destroyed id _)
      exact .aside calm_aside (World.aside_releaseAll _ _)
  · exact turns_deliver _ (.refl _ _) (.destroyed id _)

theorem facade_abandon (w : World) (id : KernelId) :
    (w.abandon id).slot = w.slot ∧ (w.abandon id).printers = w.printers := by
  refine (World.evolves_abandon w id).keeps
    (I := fun u => u.slot = w.slot ∧ u.printers = w.printers) (fun u x u' hx hor hu => ?_)
    ⟨rfl, rfl⟩
  rcases hor with rfl | rfl
  · cases hx with
    | aside ha => exact ⟨ha.slot.trans hu.1, ha.printers.trans hu.2⟩
  · cases hx with
    | did => exact hu
    | issued => exact hu

theorem turns_stepClear {found : KernelId} {rest : List Frame} :
    Turns starts w (.clearing found :: marks rest) (stepClear ⟨w, stack, result⟩ rest) := by
  have hcleared (v : World) (hs : v.slot = none) (hp : v.printers = w.printers) :
      Turns starts w (.clearing found :: marks rest) (deliver ⟨v, rest, result⟩ .done) := by
    have ha : v.Aside (deliver ⟨v, rest, result⟩ .done).world := aside_deliver .done
    refine .cleared found ?_ (ha.slot.trans hs) (ha.printers.trans hp)
    rw [marks_deliver]
  unfold stepClear
  dsimp only
  split
  · rename_i hs
    exact hcleared w hs rfl
  · rename_i id hs
    obtain ⟨hslot, hprinters⟩ := facade_abandon { w with slot := none } id
    exact hcleared _ hslot hprinters

theorem turns_stepScenario {run : ScenarioRun} {stage : ScenarioStage} {rest : List Frame} :
    Turns (Starts ⟨w, .scenario run stage :: rest, result⟩) w (.plain :: marks rest)
      (stepScenario ⟨w, .scenario run stage :: rest, result⟩ run stage rest) := by
  have ho (stage : ScenarioStage) : Open (marks (.scenario run stage :: rest)) := open_plain _
  unfold stepScenario
  split
  · have h : w.Aside (stepOpened ⟨w, .scenario run .opened :: rest, result⟩ run rest).world :=
      aside_stepOpened run rest
    refine .shifted (.aside calm_aside h) ?_
    unfold stepOpened
    split
    · exact .panicked (ho .opened)
    · split
      · exact .panicked (ho .opened)
      · exact .same (ho .opened)
      · exact .same (ho .opened)
  · rename_i saved replies
    exact .shifted (.refl _ _) (.same (ho (.probing saved [] replies)))
  · rename_i saved probe left replies
    exact (turns_start probe.command (ho (.judging saved probe left replies))).mono fun c hc =>
      hc.symm
  · rename_i saved probe left replies
    exact .shifted (.refl _ _) (.same (ho (.judging saved probe left replies)))
  · rename_i saved verdict
    exact turns_beginTeardown (ho (.judged saved verdict)) (.inl rfl)
  · rename_i saved verdict
    have h : w.Aside (stepRestore ⟨w, .scenario run (.restoring saved verdict) :: rest, result⟩ run
        saved verdict rest).world := aside_stepRestore run saved verdict rest
    refine .shifted (.aside calm_aside h) ?_
    unfold stepRestore
    split
    · exact .panicked (ho (.restoring saved verdict))
    · rw [marks_deliver]
      exact .popped _

/-- **What a step can be to the facade.** -/
theorem turns_step (m : Machine) : Turns m.Starts m.world (marks m.stack) m.step := by
  obtain ⟨w, stack, result⟩ := m
  cases stack with
  | nil => exact .shifted (.refl _ _) (.same open_nil)
  | cons f rest =>
    cases f with
    | body reporting left =>
      cases left with
      | nil => exact .shifted (.refl _ _) (.popped _)
      | cons c left =>
        rw [step]
        dsimp only
        generalize hv : (if (reporting && c.settles) = true then w.log (.began c.name) else w) = v
        have ha : w.Aside v := by
          rw [← hv]
          split
          · exact World.aside_log w _
          · exact .refl w
        have ho : Open (marks (.answering reporting c.name left :: rest)) := open_plain _
        exact .of_aside ha ((turns_start c ho).mono fun c' hc => hc.symm)
    | answering reporting command left => exact .shifted (.refl _ _) (.same (open_plain _))
    | running id => exact turns_stepRun
    | destroying id => exact turns_stepDestroy
    | clearing found => exact turns_stepClear
    | scenario run stage => exact turns_stepScenario

/-- **What a call can be to the facade.** -/
theorem turns_call (w : World) (c : Command) : Turns (· = c) w [] (ofCall w c) := by
  have ho : Open (marks []) := open_nil
  exact turns_start c ho

end Machine

end EventSim
