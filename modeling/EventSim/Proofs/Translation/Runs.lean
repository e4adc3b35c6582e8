import EventSim.Proofs.Kernel.Liveness
import EventSim.Proofs.Machine.Stacks
import EventSim.Proofs.Translation.Machines

/-!
# Runs that come to their end

Actions that neither panic nor run a kernel themselves are steady.  `Machine.Amid` says that the run
loop of a kernel was started from outside and that all actions on top of it are steady ones.

* `Amid.step`: such a run goes on with each step until its run loop is idle, and nobody panics.
* `Amid.run`: **it comes to its end**, and is seen alike in any manner up to there.
* `seen_endRun`, `sees_drained`: it does not matter in which context a run loop goes on, and nothing
  is seen of it as soon as nothing will run any more.
-/

namespace EventSim

/-- The command neither panics nor runs a kernel that the program has a name for. -/
def Command.Steady : Command → Prop
  | .run (.kernel _) | .panic _ => False
  | _ => True

theorem Command.Staged.steady {c : Command} (h : c.Staged) : c.Steady := by
  cases c with
  | panic message => exact h
  | run t =>
    cases t with
    | facade => trivial
    | kernel name => exact h
  | _ => trivial

variable {μ : Manner} {T : Target → Prop} {ids : KernelId → Prop} {w v : World} {id : KernelId}
  {t : Target} {k l : Kernel Action} {a : Action}

/-! ### Nobody panics -/

namespace World

/-- The call ends with a reply, and names stand for what they stood for. -/
def EndsWell {ρ : Type} (w : World) (r : Except Panic ρ × World) : Prop :=
  ∃ reply w', r = (.ok reply, w') ∧ w'.named = w.named

theorem named_releaseAll (w : World) (l : List Action) : (w.releaseAll l).named = w.named := by
  rw [releaseAll_eq]

theorem named_traced (w : World) (e : Engine Action) (timing : Timing) :
    (w.traced e timing).named = w.named := by
  cases timing <;> rfl

theorem endsWell_concluded (w : World) (id : KernelId) (k : Kernel Action) (name : HandleName)
    (dropped : List Action) (r : Except SimError (Handle × Kernel Action)) :
    w.EndsWell (w.concluded id k name dropped r) := by
  cases r with
  | ok r => exact ⟨_, _, rfl, rfl⟩
  | error e => exact ⟨_, _, rfl, named_releaseAll _ dropped⟩

namespace Renders

variable (m : Renders μ T ids w v)

include m

theorem endsWell_schedule (ht : T t) (timing : Timing) (name : HandleName) (a : Action) :
    w.EndsWell (w.schedule t timing name a) := by
  obtain ⟨id, k, l, hid, hw, hv, hwk, hvl, hk⟩ := m.target ht
  rw [schedule_eq hw hwk]
  obtain ⟨reply, w', hr, hnamed⟩ := endsWell_concluded
    (if t = .facade then w.traced (.builtIn false k) timing else w) id k name [a]
    (k.schedule timing a)
  refine ⟨reply, w', hr, hnamed.trans ?_⟩
  split
  · exact named_traced w _ timing
  · rfl

theorem endsWell_onReached (ht : T t)
    {f : KernelId → Engine Action → World → Except Panic Reply × World}
    (h : ∀ id k, w.engine? id = some (.builtIn false k) →
      w.EndsWell (f id (.builtIn false k) w)) : w.EndsWell (w.onReached t f) := by
  obtain ⟨id, k, l, hid, hw, hv, hwk, hvl, hk⟩ := m.target ht
  simp only [onReached, reach_of_find hw, hwk]
  exact h id k hwk

theorem endsWell_onFound (ht : T t) (without : Reply)
    {f : KernelId → Engine Action → Except Panic Reply × World}
    (h : ∀ id k, w.EndsWell (f id (.builtIn false k))) : w.EndsWell (w.onFound t without f) := by
  obtain ⟨id, k, l, hid, hw, hv, hwk, hvl, hk⟩ := m.target ht
  simp only [onFound, hw, hwk]
  exact h id k

theorem endsWell_delayLeft (s : w.Sound) (ht : T t) (name : HandleName) :
    w.EndsWell (w.delayLeft t (w.handle name)) := by
  refine m.endsWell_onReached ht fun id k hk => ?_
  cases hx : k.isExpired (w.handle name) with
  | true =>
    rw [Engine.delayLeft, Kernel.delayLeft_of_isExpired hx]
    exact ⟨_, w, rfl, rfl⟩
  | false =>
    have hi := (Kernel.isExpired_eq_false.1 hx).1
    obtain ⟨left, hl⟩ :=
      (s.kernels hk).delayLeft_of_live (s.knows hk (keeps_handle w name) hi) hx
    rw [Engine.delayLeft, hl]
    exact ⟨_, w, rfl, rfl⟩

end Renders

theorem Renders.endsWell_scheduleEach (ht : T t) (name : Option HandleName)
    (ha : ∀ i, (a.numbered i).Directed T) (delays : List Time) (i : Nat)
    (m : Renders μ T ids w v) (s : w.Sound) :
    w.EndsWell (w.scheduleEach t name a i delays) := by
  induction delays generalizing w v i with
  | nil => exact ⟨_, w, rfl, rfl⟩
  | cons delay rest ih =>
    have h := RendersEnd.schedule m s ht (.after delay)
      (name.getD (.word ((a.numbered i).tag.getD ""))) (ha i)
    have hs := s.schedule t (.after delay) (name.getD (.word ((a.numbered i).tag.getD "")))
      (a.numbered i)
    obtain ⟨reply, w', hr, hnamed⟩ := m.endsWell_schedule ht (.after delay)
      (name.getD (.word ((a.numbered i).tag.getD ""))) (a.numbered i)
    rw [hr] at h hs
    obtain ⟨replies, w'', hrs, hnamed'⟩ := ih (i + 1) h.world hs
    refine ⟨reply :: replies, w'', ?_, hnamed'.trans hnamed⟩
    unfold World.scheduleEach
    simp only [hr, hrs]

/-- **A steady command ends well.** -/
theorem Renders.endsWell_perform (m : Renders μ T ids w v) (s : w.Sound) {x : Command}
    (hx : x.All (Command.Directed T)) (hs : x.Steady) : w.EndsWell (w.perform x) := by
  have hself := hx.self
  cases x with
  | schedule t timing name a => exact m.endsWell_schedule hself.1 timing name a
  | scheduleEach t delays name a =>
    obtain ⟨replies, w', hr, hnamed⟩ :=
      Renders.endsWell_scheduleEach hself.1 name (fun i => hx.directed ⟨i, rfl⟩) delays 0 m s
    refine ⟨.many replies, w', ?_, hnamed⟩
    simp only [perform, hr]
  | chain t tag delay length name =>
    cases length with
    | zero => exact ⟨_, w, rfl, rfl⟩
    | succ left => exact m.endsWell_schedule hself (.after delay) name _
  | stopAfter t delay name =>
    refine m.endsWell_onReached hself fun id k _ => ?_
    split <;> exact ⟨_, _, rfl, rfl⟩
  | cancel t name | remove t name =>
    exact m.endsWell_onFound hself _ fun id k => ⟨_, _, rfl, named_releaseAll _ _⟩
  | isExpired t name => exact m.endsWell_onFound hself _ fun id k => ⟨_, w, rfl, rfl⟩
  | delayLeft t name => exact m.endsWell_delayLeft s hself name
  | stop t => exact m.endsWell_onReached hself fun id k _ => ⟨_, _, rfl, rfl⟩
  | attach t b =>
    refine m.endsWell_onReached hself.1 fun id k hk => ⟨_, _, rfl, ?_⟩
    simp only [World.attach, hk]
    rfl
  | query t q =>
    cases q with
    | systemId => exact m.endsWell_onFound hself _ fun id k => ⟨_, w, rfl, rfl⟩
    | _ => exact m.endsWell_onReached hself fun id k _ => ⟨_, w, rfl, rfl⟩
  | panic => exact hs.elim
  | idle | inspect | same | run | destroy => exact ⟨_, w, rfl, rfl⟩
  | _ => exact hself.elim

end World

namespace Machine

variable {s s' rest : List Frame} {result : Option (Except Panic Reply)} {m n : Machine}
  {names : List (KernelName × KernelId)}

/-! ### The way to the end -/

/-- The run loop of the kernel `id` is the last of all. -/
def Bottom (id : KernelId) (l : List Role) : Prop :=
  ∃ above, l = above ++ [.running id] ∧ ∀ j, .running j ∉ above

theorem bottom_running (id : KernelId) : Bottom id [.running id] :=
  ⟨[], rfl, fun _ => List.not_mem_nil⟩

theorem Bottom.push {l : List Role} {role : Role} (h : Bottom id l) (hr : ∀ j, role ≠ .running j) :
    Bottom id (role :: l) := by
  obtain ⟨above, rfl, ha⟩ := h
  refine ⟨role :: above, rfl, fun j hj => ?_⟩
  rcases List.mem_cons.1 hj with hj | hj
  · exact hr j hj.symm
  · exact ha j hj

theorem Bottom.tail {l : List Role} {role : Role} (h : Bottom id (role :: l))
    (hr : ∀ j, role ≠ .running j) : Bottom id l := by
  obtain ⟨above, hl, ha⟩ := h
  cases above with
  | nil =>
    cases hl
    exact absurd rfl (hr id)
  | cons first above =>
    cases hl
    exact ⟨above, rfl, fun j hj => ha j (List.mem_cons_of_mem _ hj)⟩

theorem body_ne_running (j : KernelId) : Role.body ≠ .running j := fun h => by cases h

theorem destroying_ne_running (i j : KernelId) : Role.destroying i ≠ .running j :=
  fun h => by cases h

theorem Bottom.eq_of_running {l : List Role} {j : KernelId} (h : Bottom id (.running j :: l)) :
    j = id ∧ l = [] := by
  obtain ⟨above, hl, ha⟩ := h
  cases above with
  | nil =>
    cases hl
    exact ⟨rfl, rfl⟩
  | cons first above =>
    cases hl
    exact absurd List.mem_cons_self (ha j)

/-- The call goes on, the run loop of the kernel `id` is the last to end, and names stand for what
they stood for. -/
structure Under (id : KernelId) (names : List (KernelName × KernelId)) (m : Machine) : Prop where
  bottom : Bottom id (roles m.stack)
  result : m.result = none
  named : m.world.named = names

theorem Under.stack_ne (h : m.Under id names) : m.stack ≠ [] := by
  intro hs
  obtain ⟨above, hl, -⟩ := h.bottom
  simp [hs, roles] at hl

theorem named_deliver (r : Reply) : (deliver ⟨w, s, result⟩ r).world.named = w.named := by
  unfold deliver
  dsimp only
  split
  · rfl
  · split <;> rfl
  · split <;> rfl
  · rfl

/-- Only the end of the outermost call is told. -/
theorem result_deliver (hs : s ≠ []) (r : Reply) :
    (deliver ⟨w, s, result⟩ r).result = result := by
  unfold deliver
  dsimp only
  split
  · exact absurd rfl hs
  · rfl
  · split <;> rfl
  · rfl

theorem under_deliver (hs : Bottom id (roles s)) (hn : w.named = names) (r : Reply) :
    (deliver ⟨w, s, none⟩ r).Under id names := by
  have hroles : roles (deliver ⟨w, s, none⟩ r).stack = roles s := roles_deliver r
  have hne : s ≠ [] := Under.stack_ne (m := ⟨w, s, none⟩) ⟨hs, rfl, hn⟩
  exact ⟨hroles ▸ hs, result_deliver hne r, (named_deliver r).trans hn⟩

theorem under_startAction (h : w.Renders μ T ids v) (ha : a.Minds T) (hs : Bottom id (roles s))
    (hn : w.named = names) : (startAction ⟨w, s, none⟩ a).Under id names := by
  have hb : Bottom id (roles (.body a.reporting a.body :: s)) :=
    hs.push body_ne_running
  unfold startAction
  dsimp only
  cases htag : a.tag with
  | none => exact ⟨hb, rfl, hn⟩
  | some tag =>
    have ht : T a.target := ha.resolve_left fun hnone => by
      rw [hnone] at htag
      cases htag
    obtain ⟨now, context, hnow, hcontext, -, -⟩ := h.present ht
    simp only [hnow, hcontext]
    exact ⟨hb, rfl, hn⟩

/-- A steady command that starts keeps the call going. -/
theorem under_start (h : w.Renders μ T ids v) (s₀ : w.Sound) (hT : ¬ T .facade) {x : Command}
    (hx : x.All (Command.Directed T)) (hsteady : x.Steady) (hs : Bottom id (roles s))
    (hn : w.named = names) : (start ⟨w, s, none⟩ x).Under id names := by
  cases hd : x.drives with
  | false =>
    obtain ⟨reply, w', hr, hnamed⟩ := h.endsWell_perform s₀ hx hsteady
    rw [start_of_not_drives hd, hr]
    exact under_deliver hs (hnamed.trans hn) reply
  | true =>
    cases x with
    | run t =>
      cases t with
      | facade => exact absurd hx.self hT
      | kernel name => exact hsteady.elim
    | destroy t =>
      obtain ⟨id', k, l, -, hw, -, hwk, -, -⟩ := h.target hx.self
      simp only [start, World.reach_of_find hw, beginDestroy, hwk, Bool.false_eq_true, if_false]
      exact ⟨hs.push (destroying_ne_running _), rfl, hn⟩
    | teardown | scenario => exact hx.self.elim
    | _ => cases hd

/-- The run loop of the kernel `id` is about to end. -/
structure AtEnd (id : KernelId) (m : Machine) : Prop where
  stack : m.stack = [.running id]
  idle : ∃ k, m.world.engine? id = some (.builtIn false k) ∧ k.dequeue = .idle

/-- A turn of the run loop keeps the call going, unless it is the last one. -/
theorem under_running (h : w.Renders μ T ids v) (s₀ : w.Sound) (hid : ids id)
    (hn : w.named = names) :
    (step ⟨w, [.running id], none⟩).Under id names ∨ AtEnd id ⟨w, [.running id], none⟩ := by
  obtain ⟨k, l, hwk, -, hk⟩ := h.kernels id hid
  have hb := bottom_running id
  cases hd : k.dequeue with
  | idle => exact .inr ⟨rfl, k, hwk, hd⟩
  | skipped p k' =>
    left
    rw [step_running hwk, hd]
    exact ⟨hb, rfl, (World.named_releaseAll _ _).trans hn⟩
  | past p k' => exact absurd hd (s₀.kernels hwk).not_past
  | started e k' =>
    left
    have hstop : k.stopping = false := by
      by_contra hs
      rw [Kernel.dequeue_of_stopping (Bool.not_eq_false _ ▸ hs)] at hd
      cases hd
    rw [step_running hwk, hd]
    rcases hk.dequeue (s₀.kernels hwk) fun _ => hstop with ⟨_, _, hskip, -⟩ | hnext
    · rw [hd] at hskip
      cases hskip
    · rw [hd] at hnext
      generalize l.dequeue = d at hnext
      cases hnext with
      | started ha hk' =>
        cases hp : e.payload with
        | halt =>
          simp only [hp]
          exact ⟨hb, rfl, hn⟩
        | act a =>
          simp only [hp]
          exact under_startAction (h.setEngine hid hk') (ha a hp).1 hb hn

/-- A turn of a destruction keeps the call going. -/
theorem under_destroying (h : w.Renders μ T ids v) {j : KernelId} (hj : ids j)
    (hs : Bottom id (roles s)) (hn : w.named = names) :
    (step ⟨w, .destroying j :: s, none⟩).Under id names := by
  obtain ⟨k, l, hwk, -, hk⟩ := h.kernels j hj
  simp only [step, stepDestroy, hwk]
  cases hp : k.popTeardown with
  | none =>
    refine under_deliver hs ?_ .done
    exact (World.named_releaseAll _ _).trans hn
  | some r =>
    obtain ⟨e, k'⟩ := r
    obtain ⟨ha, l', -, hk'⟩ := hk.popTeardown hp
    exact under_startAction (s := .destroying j :: s) (h.setEngine hj hk') ha.1
      (hs.push (destroying_ne_running j)) hn

/-- A run of the kernel `id` was called from outside, and steady actions are on top of its run
loop. -/
structure Amid (id : KernelId) (names : List (KernelName × KernelId)) (m : Machine) : Prop
    extends Under id names m where
  sound : m.world.Sound
  steady : m.Carries Command.Steady

/-- **A run goes on with each step**, until its run loop is about to end. -/
theorem Amid.step (h : m.Amid id names) (hr : m.Renders μ T ids n) (hT : ¬ T .facade) :
    m.step.Amid id names ∨ m.AtEnd id := by
  have hsound := hr.sound_step h.sound
  have hsteady := h.steady.step fun _ => Command.Staged.steady
  suffices hstep : m.step.Under id names ∨ m.AtEnd id from
    hstep.imp_left fun hu => ⟨hu, hsound, hsteady⟩
  obtain ⟨⟨hb, hresult, hn⟩, s₀, hcarries⟩ := h
  obtain ⟨w, stack, result⟩ := m
  obtain ⟨v, stack', result'⟩ := n
  obtain ⟨hw, hstack, -⟩ := hr
  cases hresult
  cases hstack with
  | nil => exact absurd rfl (Under.stack_ne ⟨hb, rfl, hn⟩)
  | @cons f _ rest _ hf hrest =>
    have hb : Bottom id (f.role :: roles rest) := hb
    cases hf with
    | @body left reporting hl =>
      have hrest : Bottom id (roles rest) := hb.tail body_ne_running
      left
      cases left with
      | nil => exact ⟨hrest, rfl, hn⟩
      | cons x left =>
        obtain ⟨hx, hl⟩ := List.forall_mem_cons.1 hl
        have hsx : x.Steady := (hcarries.waiting _ List.mem_cons_self x List.mem_cons_self).self
        rw [Machine.step]
        dsimp only
        split
        · exact under_start (s := .answering reporting x.name left :: rest) (hw.log _)
            (s₀.aside (World.aside_log w _)) hT hx hsx hb hn
        · exact under_start (s := .answering reporting x.name left :: rest) hw s₀ hT hx hsx hb
            hn
    | answering reporting command command' hl => exact .inl ⟨hb, rfl, hn⟩
    | @running j hj =>
      obtain ⟨rfl, hnil⟩ := hb.eq_of_running
      cases rest with
      | nil => exact under_running hw s₀ hj hn
      | cons => cases hnil
    | destroying hj =>
      exact .inl (under_destroying hw hj (hb.tail (destroying_ne_running _)) hn)

/-- Before its end, a run does not rest in any manner. -/
theorem Amid.not_rests (h : m.Amid id names) (hr : m.Renders μ T ids n) (he : ¬ m.AtEnd id) :
    ¬ m.Rests μ := by
  rintro ⟨-, j, rest, watched, k, hs, hk, hstop⟩
  have hb : Bottom id (.running j :: roles rest) := by
    have hb := h.bottom
    rwa [hs] at hb
  obtain ⟨rfl, hnil⟩ := hb.eq_of_running
  have hj : ids j := by
    have hstack := hr.stack
    rw [hs] at hstack
    obtain ⟨_, _, hf, -, -⟩ := List.forall₂_cons_left_iff.1 hstack
    cases hf with
    | running hj => exact hj
  obtain ⟨k', l, hwk, -, -⟩ := hr.world.kernels j hj
  rw [hk] at hwk
  cases hwk
  refine he ⟨?_, k, hk, Kernel.dequeue_of_stopping hstop⟩
  rw [hs, List.map_eq_nil_iff.1 hnil]

/-- **A run comes to its end**, and up to there it is seen alike in any manner. -/
theorem Amid.run (h : m.Amid id names) (hr : m.Renders μ T ids n) (hT : ¬ T .facade) :
    ∃ l m' l' n', m.Sees l m' ∧ n.Sees l' n' ∧ List.Forall₂ (RendersSight μ T ids) l l' ∧
      m'.Renders μ T ids n' ∧ m'.Amid id names ∧ m'.AtEnd id := by
  induction hi : m.weight using Nat.strongRecOn generalizing m n with
  | ind i ih =>
    by_cases he : m.AtEnd id
    · exact ⟨[], m, [], n, .refl m, .refl n, .nil, hr, h, he⟩
    · have hne := h.stack_ne
      have hlt := weight_step hne
      have hstep := (h.step hr hT).resolve_right he
      obtain ⟨l, n₁, hn, hl, hr₁⟩ := hr.step h.sound hne (h.not_rests hr he)
      obtain ⟨l₁, m', l', n', hm', hn', hl', hr', h', he'⟩ := ih _ (hi ▸ hlt) hstep hr₁ rfl
      exact ⟨_, m', _, n', .step hne hm', hn.trans hn', List.rel_append hl hl', hr', h', he'⟩

/-- The last step of a run is not seen. -/
theorem AtEnd.sees (h : m.AtEnd id) : ∃ k, m.world.engine? id = some (.builtIn false k) ∧
    m.Sees [] ⟨m.world.setEngine id (.builtIn false k.endRun), [], some (.ok .done)⟩ := by
  obtain ⟨w, stack, result⟩ := m
  obtain ⟨rfl, k, hk, hd⟩ := h
  refine ⟨k, hk, ?_⟩
  have hs := Sees.single (m := ⟨w, [.running id], result⟩) (List.cons_ne_nil _ _)
  rw [glimpse, sight?_running hk, step_running hk, hd] at hs
  exact hs

/-! ### The context of a run loop that goes on -/

theorem setEngine_releaseAll (r : List Action) (e : Engine Action) :
    (w.releaseAll r).setEngine id e = (w.setEngine id e).releaseAll r := by
  rw [World.releaseAll_eq, World.releaseAll_eq]
  rfl

theorem engine?_releaseAll (r : List Action) : (w.releaseAll r).engine? id = w.engine? id := by
  rw [World.releaseAll_eq]
  rfl

/-- Nobody sees that an event is skipped. -/
theorem seen_of_skipped {p : Payload Action} (s : List Frame)
    (result : Option (Except Panic Reply)) (hl : v.engine? id = some (.builtIn false l))
    (hd : l.dequeue = .skipped p k) :
    seen ⟨v, .running id :: s, result⟩ =
        seen ⟨(v.setEngine id (.builtIn false k)).releaseAll p.action?.toList, .running id :: s,
          result⟩ ∧
      Machine.run ⟨v, .running id :: s, result⟩ =
        Machine.run ⟨(v.setEngine id (.builtIn false k)).releaseAll p.action?.toList,
          .running id :: s, result⟩ := by
  have h := seen_of_silent (m := ⟨v, .running id :: s, result⟩) (List.cons_ne_nil _ _)
    (by rw [sight?_running hl, hd])
  rwa [step_running hl, hd] at h

/-- A run loop that goes on outside of any context does what it would have done. -/
theorem seen_endRun (hl : v.engine? id = some (.builtIn false l)) (s : l.Sound) :
    seen ⟨v, [.running id], none⟩ =
        seen ⟨v.setEngine id (.builtIn false l.endRun), [.running id], none⟩ ∧
      Machine.run ⟨v, [.running id], none⟩ =
        Machine.run ⟨v.setEngine id (.builtIn false l.endRun), [.running id], none⟩ := by
  induction hi : weight ⟨v, [.running id], none⟩ using Nat.strongRecOn generalizing v l with
  | ind i ih =>
    have hl' := World.engine?_setEngine_self hl (.builtIn false l.endRun)
    have hne {u : World} : (⟨u, [.running id], none⟩ : Machine).stack ≠ [] := List.cons_ne_nil _ _
    have hd' := l.dequeue_endRun
    cases hd : l.dequeue with
    | past p k => exact absurd hd s.not_past
    | idle =>
      rw [hd] at hd'
      refine seen_congr hne hne ?_ ?_
      · rw [sight?_running hl, sight?_running hl', hd, hd']
      · rw [step_running hl, step_running hl', hd, hd', World.setEngine_setEngine]
        rfl
    | started e k =>
      rw [hd] at hd'
      refine seen_congr hne hne ?_ ?_
      · rw [sight?_running hl, sight?_running hl', hd, hd']
      · rw [step_running hl, step_running hl', hd, hd']
        simp only [World.setEngine_setEngine]
    | skipped p k =>
      rw [hd] at hd'
      obtain ⟨hseen, hrun⟩ := seen_of_skipped [] none hl hd
      obtain ⟨hseen', hrun'⟩ := seen_of_skipped [] none hl' hd'
      have hlt := weight_step (m := ⟨v, [.running id], none⟩) hne
      rw [step_running hl, hd] at hlt
      have hk := (engine?_releaseAll p.action?.toList).trans
        (World.engine?_setEngine_self hl (.builtIn false k))
      have h := ih _ (hi ▸ hlt) hk (s.skipped hd) rfl
      rw [setEngine_releaseAll, World.setEngine_setEngine] at h
      rw [World.setEngine_setEngine] at hseen' hrun'
      rw [hseen, hrun, hseen', hrun']
      exact h

/-! ### The rest of a run that has nothing more to start -/

/-- As soon as nothing will run any more, nothing is seen, and little is changed. -/
theorem sees_drained (hl : v.engine? id = some (.builtIn false l)) (s : l.Sound)
    (hf : l.isFinished = true) :
    ∃ v' l', Sees ⟨v, [.running id], none⟩ [] ⟨v', [], some (.ok .done)⟩ ∧
      v'.engine? id = some (.builtIn false l') ∧ (∀ t, v'.find t = v.find t) ∧
      ∀ q, q ≠ .context →
        World.answer (.builtIn false l') q = World.answer (.builtIn false l) q := by
  induction hi : weight ⟨v, [.running id], none⟩ using Nat.strongRecOn generalizing v l with
  | ind i ih =>
    have hne : (⟨v, [.running id], none⟩ : Machine).stack ≠ [] := List.cons_ne_nil _ _
    have hstep := Sees.single (m := ⟨v, [.running id], none⟩) hne
    have hlt := weight_step (m := ⟨v, [.running id], none⟩) hne
    cases hd : l.dequeue with
    | past p k => exact absurd hd s.not_past
    | idle =>
      rw [glimpse, sight?_running hl, step_running hl, hd] at hstep
      refine ⟨_, _, hstep, World.engine?_setEngine_self hl _, fun t => rfl, fun q hq => ?_⟩
      cases q with
      | context => exact absurd rfl hq
      | _ => rfl
    | started e k =>
      obtain ⟨rest, hp, hc, -, -⟩ := Kernel.dequeue_eq_started hd
      have he : e ∈ l.scheduler.toList :=
        (Scheduler.perm_pop hp).mem_iff.2 List.mem_cons_self
      have hpend := (s.mem_sets.1 (Kernel.mem_storedUids he)).resolve_right hc
      rw [List.isEmpty_iff.1 hf] at hpend
      cases hpend
    | skipped p k =>
      rw [glimpse, sight?_running hl, step_running hl, hd] at hstep
      rw [step_running hl, hd] at hlt
      obtain ⟨e, rest, -, -, -, hk⟩ := Kernel.dequeue_eq_skipped hd
      have hk' := (engine?_releaseAll p.action?.toList).trans
        (World.engine?_setEngine_self hl (.builtIn false k))
      have hf' : k.isFinished = true := by
        rw [hk]
        exact hf
      obtain ⟨v', l', hsees, hl', hfind, hanswer⟩ := ih _ (hi ▸ hlt) hk' (s.skipped hd) hf' rfl
      refine ⟨v', l', hstep.trans hsees, hl', fun t => ?_, fun q hq => ?_⟩
      · rw [hfind, World.releaseAll_eq]
        rfl
      · rw [hanswer q hq, hk]
        cases q with
        | context => exact absurd rfl hq
        | _ => rfl

end Machine

end EventSim
