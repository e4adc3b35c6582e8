import EventSim.Proofs.Translation.Runs

/-!
# Requests to stop

A request to stop ends a run after the present event.  Until a kernel that was asked to stop is run
again, it starts nothing and loses nothing that is not withdrawn: `Kernel.Does.halted` says so of
every deed, `World.HaltedAt.happens` of whatever happens in the world.

`Machine.askedToStop?` tells when a run is asked to stop, by an action or by a scheduled stop.  From
then on the run `Halts`, `Amid.halts_of_askedToStop`: **no further event starts, the run ends well,
and the events that were to run are still to be run**, unless they were withdrawn on the way.
-/

namespace EventSim

/-- An event starts. -/
def Sight.Starts : Sight → Prop
  | .started .. => True
  | .unwound .. | .answered _ => False

/-! ### Kernels that were asked to stop -/

/-- The deed withdraws the timed event of number `uid` from the kernel `id`. -/
def Deed.Discards {α : Type} (id : KernelId) (uid : Nat) : Deed α → Prop
  | .removed h | .cancelled h => h.owner = some id ∧ h.uid = uid
  | .swept | .vanished => True
  | _ => False

namespace Kernel

variable {α : Type} {k k' k'' : Kernel α} {d : Deed α} {P Q : Nat → Prop}

/-- The kernel `k` that was asked to stop has become `k'`: nothing has started, and the events that
were to run still are, unless `P` says that they were withdrawn. -/
structure Halted (P : Nat → Prop) (k k' : Kernel α) : Prop where
  id_eq : k'.id = k.id
  stopping : k'.stopping = true
  executed : k'.executed = k.executed
  now : k'.now = k.now
  pending : ∀ uid ∈ k.pending, uid ∈ k'.pending ∨ P uid

namespace Halted

theorem refl (P : Nat → Prop) (hs : k.stopping = true) : k.Halted P k :=
  ⟨rfl, hs, rfl, rfl, fun _ hu => .inl hu⟩

theorem trans (h : k.Halted P k') (g : k'.Halted P k'') : k.Halted P k'' := by
  refine ⟨g.id_eq.trans h.id_eq, g.stopping, g.executed.trans h.executed, g.now.trans h.now,
    fun uid hu => ?_⟩
  rcases h.pending uid hu with hu | hp
  · exact g.pending uid hu
  · exact .inr hp

theorem mono (h : k.Halted P k') (hpq : ∀ uid, P uid → Q uid) : k.Halted Q k' :=
  ⟨h.id_eq, h.stopping, h.executed, h.now, fun uid hu => (h.pending uid hu).imp_right (hpq uid)⟩

end Halted

/-- Only the event of the handle is taken from those that are to run. -/
theorem pending_erase {h : Handle} (hi : k.Issued h) :
    ∀ uid ∈ k.pending, uid ∈ k.pending.erase h.uid ∨ h.owner = some k.id ∧ h.uid = uid := by
  intro uid hu
  by_cases he : h.uid = uid
  · exact .inr ⟨hi, he⟩
  · exact .inl ((List.mem_erase_of_ne (Ne.symm he)).2 hu)

theorem halted_remove (hs : k.stopping = true) (h : Handle) :
    k.Halted ((Deed.removed h : Deed α).Discards k.id) (k.remove h).2 := by
  unfold remove
  by_cases hi : k.Issued h
  · rw [if_pos hi]
    cases h.kind with
    | teardown => exact ⟨rfl, hs, rfl, rfl, fun _ hu => .inl hu⟩
    | timed =>
      dsimp only
      split <;> exact ⟨rfl, hs, rfl, rfl, pending_erase hi⟩
  · rw [if_neg hi]
    exact .refl _ hs

theorem halted_cancel (hs : k.stopping = true) (h : Handle) :
    k.Halted ((Deed.cancelled h : Deed α).Discards k.id) (k.cancel h).2 := by
  unfold cancel
  by_cases hi : k.Issued h
  · rw [if_pos hi]
    cases h.kind with
    | teardown => exact ⟨rfl, hs, rfl, rfl, fun _ hu => .inl hu⟩
    | timed =>
      dsimp only
      split
      · exact ⟨rfl, hs, rfl, rfl, pending_erase hi⟩
      · exact .refl _ hs
  · rw [if_neg hi]
    exact .refl _ hs

/-- **Until it is run again, a kernel that was asked to stop starts nothing**, and loses nothing
that is not withdrawn. -/
theorem Does.halted (hd : k.Does d k') (hs : k.stopping = true) (hb : d ≠ .began) :
    k.Halted (d.Discards k.id) k' := by
  have hidle := dequeue_of_stopping hs
  cases hd with
  | issued hi =>
    cases hi with
    | stored => exact ⟨rfl, hs, rfl, rfl, fun _ hu => .inl (List.mem_cons_of_mem _ hu)⟩
    | registered => exact ⟨rfl, hs, rfl, rfl, fun _ hu => .inl hu⟩
  | removed h => exact halted_remove hs h
  | cancelled h => exact halted_cancel hs h
  | attached | ended => exact ⟨rfl, hs, rfl, rfl, fun _ hu => .inl hu⟩
  | stopped => exact ⟨rfl, rfl, rfl, rfl, fun _ hu => .inl hu⟩
  | began => exact absurd rfl hb
  | started hq | skipped hq | strayed hq =>
    rw [hidle] at hq
    cases hq
  | unwound hq =>
    obtain ⟨rest, -, rfl⟩ := popTeardown_eq_some.1 hq
    exact ⟨rfl, hs, rfl, rfl, fun _ hu => .inl hu⟩
  | swept | vanished => exact ⟨rfl, hs, rfl, rfl, fun _ _ => .inr trivial⟩

end Kernel

namespace World

variable {w w' : World} {id : KernelId} {k : Kernel Action} {P : Nat → Prop} {x : Happening}

/-- The kernel `id` is what has become of `k`, which was asked to stop. -/
def HaltedAt (id : KernelId) (P : Nat → Prop) (k : Kernel Action) (w : World) : Prop :=
  ∃ k', w.engine? id = some (.builtIn false k') ∧ k.Halted P k'

theorem HaltedAt.did {j : KernelId} {watched : Bool} {l l' : Kernel Action} {d : Deed Action}
    (h : w.HaltedAt id P k) (hid : k.id = id) (hl : w.engine? j = some (.builtIn watched l))
    (hd : l.Does d l') (hb : d ≠ .began) (hP : j = id → ∀ uid, d.Discards id uid → P uid) :
    (w.setEngine j (.builtIn watched l')).HaltedAt id P k := by
  obtain ⟨k', hk, hh⟩ := h
  by_cases hj : j = id
  · subst hj
    rw [hl] at hk
    cases hk
    have hstep := hd.halted hh.stopping hb
    rw [hh.id_eq, hid] at hstep
    exact ⟨l', engine?_setEngine_self hl _, hh.trans (hstep.mono (hP rfl))⟩
  · exact ⟨k', (engine?_setEngine_ne _ hj).trans hk, hh⟩

theorem HaltedAt.attach (h : w.HaltedAt id P k) (hid : k.id = id) (j : KernelId) (b : Backend) :
    (w.attach j b).HaltedAt id P k := by
  refine attach_induction (I := HaltedAt id P k) h (fun v v' ha hv => ?_)
    fun v watched l hl hv => hv.did hid hl (.attached l b) (fun hd => by cases hd)
      fun _ uid hu => hu.elim
  obtain ⟨k', hk, hh⟩ := hv
  exact ⟨k', by rwa [engine?, ha.engines], hh⟩

/-- Whatever happens, a kernel that was asked to stop is left as it is, unless it is run again. -/
theorem HaltedAt.happens (h : w.HaltedAt id P k) (hid : k.id = id) (hx : w.Happens x w')
    (hd : ∀ j d, x = .did j d → d ≠ .began ∧ (j = id → ∀ uid, d.Discards id uid → P uid)) :
    w'.HaltedAt id P k := by
  cases hx with
  | aside ha =>
    obtain ⟨k', hk, hh⟩ := h
    exact ⟨k', by rwa [engine?, ha.engines], hh⟩
  | made spec =>
    obtain ⟨k', hk, hh⟩ := h
    exact ⟨k', (List.getElem?_append_left (List.getElem?_eq_some_iff.1 hk).1).trans hk, hh⟩
  | did hl hdoes => exact h.did hid hl hdoes (hd _ _ rfl).1 (hd _ _ rfl).2
  | issued name hl hi => exact h.did hid hl (.issued hi) (hd _ _ rfl).1 (hd _ _ rfl).2
  | @occupied j name b hs hb => exact HaltedAt.attach (w := { w with slot := some j }) h hid j b
  | configured hb => exact h.attach hid _ _
  | blank | forged | enlisted | vacated | unprinted | printed => exact h

end World

/-! ### Runs that were asked to stop -/

namespace Machine

/-- The next step withdraws the timed event of number `uid` from the kernel `id`: it is cancelled
or removed, or the kernel is destroyed. -/
def Discards (id : KernelId) (uid : Nat) (m : Machine) : Prop :=
  match m.stack with
  | .body _ (.cancel _ name :: _) :: _ | .body _ (.remove _ name :: _) :: _ =>
    (m.world.handle name).owner = some id ∧ (m.world.handle name).uid = uid
  | .destroying j :: _ => j = id
  | _ => False

/-- The kernel `id` while the present event executes, if the next step asks it to stop: an action
does so, or a scheduled stop starts. -/
def askedToStop? (id : KernelId) (m : Machine) : Option (Kernel Action) :=
  match m.stack, m.world.engine? id with
  | .body _ (.stop t :: _) :: _, some (.builtIn false k) =>
    match m.world.find t with
    | .ok (some j) => if j = id then some k else none
    | _ => none
  | .running j :: _, some (.builtIn false k) =>
    match k.dequeue with
    | .started ⟨_, .halt⟩ k => if j = id then some k else none
    | _ => none
  | _, _ => none

/-- The run of the kernel `id` is to stop since the kernel was `k`: no further event starts, the run
ends well, and nothing of `k` is lost but what is withdrawn on the way. -/
structure Halts (id : KernelId) (k : Kernel Action) (m : Machine) : Prop where
  unstarted : ∀ y ∈ m.seen, ¬ y.1.Starts
  result : m.run.result = some (.ok .done)
  kernel : m.run.world.HaltedAt id (fun uid => ∃ l n, m.Sees l n ∧ n.Discards id uid) k

variable {μ : Manner} {T : Target → Prop} {ids : KernelId → Prop} {w : World} {id : KernelId}
  {k : Kernel Action} {m n o : Machine} {f g : Frame} {rest : List Frame}
  {result : Option (Except Panic Reply)} {names : List (KernelName × KernelId)}
  {l : List (Sight × World)}

/-- Only a run loop starts events. -/
theorem not_starts_glimpse (hf : ∀ j, f ≠ .running j) :
    ∀ y ∈ glimpse ⟨w, f :: rest, result⟩, ¬ y.1.Starts := by
  intro y hy
  obtain ⟨x, hx, rfl⟩ := List.mem_map.1 hy
  have hx : sight? ⟨w, f :: rest, result⟩ = some x := Option.mem_toList.1 hx
  have hlast {x : Sight} (hl : lastSight? rest = some x) : ¬ x.Starts := by
    unfold lastSight? at hl
    split at hl <;> cases hl
    exact fun h => h
  unfold sight? at hx
  split at hx
  · split at hx <;> cases hx
    exact fun h => h
  · rename_i hs
    cases hs
    exact absurd rfl (hf _)
  · rename_i hs
    cases hs
    split at hx
    · split at hx
      · cases hx
        exact fun h => h
      · exact hlast hx
    · cases hx
  · cases hx

/-- What a frame does that is no run loop: it runs no kernel, and withdraws what the step
withdraws. -/
theorem discards_of_brings {j : KernelId} {d : Deed Action} (hfg : f.Renders μ T ids g)
    (hsteady : f.All Command.Steady) (hT : ¬ T .facade) (hf : ∀ i, f ≠ .running i)
    (hx : f.Brings w (.did j d)) :
    d ≠ .began ∧ (j = id → ∀ uid, d.Discards id uid →
      Discards id uid ⟨w, f :: rest, result⟩) := by
  cases hfg with
  | @body left reporting hl =>
    cases left with
    | nil => cases hx
    | cons c left =>
      have hx : c.Calls w d := hx
      refine ⟨?_, fun _ uid hu => ?_⟩
      · rintro rfl
        obtain ⟨t, rfl⟩ := hx
        have ht : T t := (hl _ List.mem_cons_self).self
        have hs : (Command.run t).Steady := (hsteady _ List.mem_cons_self).self
        cases t with
        | facade => exact hT ht
        | kernel name => exact hs
      · cases d with
        | removed h | cancelled h =>
          obtain ⟨t, name, rfl, rfl⟩ := hx
          exact hu
        | swept | vanished => exact hx.elim
        | _ => exact hu.elim
  | answering => cases hx
  | running => exact absurd rfl (hf _)
  | destroying hj =>
    rcases hx with hx | ⟨d', hd, hx⟩
    · exact hx.elim
    · cases hx
      refine ⟨?_, fun hj _ _ => hj⟩
      rintro rfl
      exact hd

/-- The next step of a run that is to stop, unless it is the last one. -/
theorem Amid.halted_step (h : m.Amid id names) (hr : m.Renders μ T ids n) (hT : ¬ T .facade)
    (hk : m.world.engine? id = some (.builtIn false k)) (hs : k.stopping = true)
    (he : ¬ m.AtEnd id) :
    (∀ y ∈ m.glimpse, ¬ y.1.Starts) ∧ m.step.world.HaltedAt id (m.Discards id ·) k := by
  obtain ⟨⟨hb, -, -⟩, s₀, -, hcarries⟩ := h
  obtain ⟨w, stack, result⟩ := m
  obtain ⟨-, hstack, -⟩ := hr
  cases stack with
  | nil =>
    obtain ⟨above, hl, -⟩ := hb
    simp [roles] at hl
  | cons f rest =>
    obtain ⟨g, _, hfg, -, -⟩ := List.forall₂_cons_left_iff.1 hstack
    have hf : ∀ j, f ≠ .running j := by
      rintro j rfl
      obtain ⟨rfl, hnil⟩ := Bottom.eq_of_running hb
      rw [List.map_eq_nil_iff.1 hnil] at he
      exact he ⟨rfl, k, hk, Kernel.dequeue_of_stopping hs⟩
    refine ⟨not_starts_glimpse hf, ?_⟩
    have hsteady := hcarries f List.mem_cons_self
    refine (evolves_step f rest).keeps (fun v x v' hx hb hv => ?_) ⟨k, hk, .refl _ hs⟩
    refine hv.happens (s₀.numbered _ _ _ hk) hx fun j d hd => ?_
    subst hd
    exact discards_of_brings hfg hsteady hT hf hb

/-- **A run that is to stop starts nothing more and loses nothing.** -/
theorem Amid.halts (h : m.Amid id names) (hr : m.Renders μ T ids n) (hT : ¬ T .facade)
    (hk : m.world.engine? id = some (.builtIn false k)) (hs : k.stopping = true) :
    m.Halts id k := by
  induction hi : m.weight using Nat.strongRecOn generalizing m n k with
  | ind i ih =>
    by_cases he : m.AtEnd id
    · obtain ⟨k', hk', hsees⟩ := he.sees
      rw [hk] at hk'
      cases hk'
      obtain ⟨hseen, hrun⟩ := hsees.ends rfl
      refine ⟨?_, ?_, ?_⟩
      · rw [hseen]
        exact fun y hy => by cases hy
      · rw [hrun]
      · rw [hrun]
        exact ⟨_, World.engine?_setEngine_self hk _, rfl, hs, rfl, rfl, fun _ hu => .inl hu⟩
    · have hne := h.stack_ne
      have hlt := weight_step hne
      obtain ⟨hglimpse, k₁, hk₁, hh₁⟩ := h.halted_step hr hT hk hs he
      obtain ⟨-, n₁, -, -, hr₁⟩ := hr.step h.sound hne (h.not_rests hr he)
      obtain ⟨hseen, hrun⟩ := (Sees.single hne).seen_eq
      obtain ⟨hunstarted, hresult, k', hk', hh'⟩ :=
        ih _ (hi ▸ hlt) ((h.step hr hT).resolve_right he) hr₁ hk₁ hh₁.stopping rfl
      refine ⟨?_, hrun ▸ hresult, k', hrun ▸ hk', ?_⟩
      · rw [hseen]
        exact List.forall_mem_append.2 ⟨hglimpse, hunstarted⟩
      · refine (hh₁.mono fun uid hu => ⟨[], m, .refl m, hu⟩).trans (hh'.mono fun uid hu => ?_)
        obtain ⟨l, o, ho, hd⟩ := hu
        exact ⟨_, o, .step hne ho, hd⟩

/-- A request to stop is made by an action or by a scheduled stop. -/
theorem askedToStop?_eq_some (h : m.askedToStop? id = some k) :
    (∃ reporting t left rest, m.stack = .body reporting (.stop t :: left) :: rest ∧
      m.world.find t = .ok (some id) ∧ m.world.engine? id = some (.builtIn false k)) ∨
    ∃ rest l e, m.stack = .running id :: rest ∧ m.world.engine? id = some (.builtIn false l) ∧
      l.dequeue = .started e k ∧ e.payload = .halt := by
  unfold askedToStop? at h
  split at h
  · rename_i hs hk
    split at h
    · rename_i hw
      split at h
      · rename_i hj
        cases h
        exact .inl ⟨_, _, _, _, hs, hj ▸ hw, hk⟩
      · cases h
    · cases h
  · rename_i hs hk
    split at h
    · rename_i hd
      split at h
      · rename_i hj
        cases h
        exact .inr ⟨_, _, _, hj ▸ hs, hk, hd, rfl⟩
      · cases h
    · cases h
  · cases h

/-- A request to stop is heard. -/
theorem step_of_askedToStop (h : m.askedToStop? id = some k) :
    m.step.world.engine? id = some (.builtIn false k.stop) := by
  have hcases := askedToStop?_eq_some h
  obtain ⟨w, stack, result⟩ := m
  rcases hcases with ⟨reporting, t, left, rest, rfl, hw, hk⟩ | ⟨rest, l, e, rfl, hl, hd, hp⟩
  · have hw : w.find t = .ok (some id) := hw
    have hk : w.engine? id = some (.builtIn false k) := hk
    have hself := World.engine?_setEngine_self hk (.builtIn false k.stop)
    rw [step]
    simp only [show (Command.stop t).settles = false from rfl, Bool.and_false, Bool.false_eq_true,
      if_false, start, World.perform, World.onReached, World.reach_of_find hw, hk,
      Engine.onKernel]
    rwa [World.engine?, (aside_deliver _).engines]
  · rw [step_running hl, hd]
    simp only [hp]
    exact World.engine?_setEngine_self hl _

theorem not_atEnd_of_askedToStop (h : m.askedToStop? id = some k) : ¬ m.AtEnd id := by
  rintro ⟨hs, l, hl, hidle⟩
  rcases askedToStop?_eq_some h with ⟨_, _, _, _, hs', -⟩ | ⟨_, l', e, -, hl', hd, -⟩
  · rw [hs] at hs'
    cases hs'
  · rw [hl] at hl'
    cases hl'
    rw [hidle] at hd
    cases hd

/-- In the middle of a run, all that was said of its beginning holds. -/
theorem Amid.sees (h : m.Amid id names) (hr : m.Renders μ T ids n) (hT : ¬ T .facade)
    (ho : m.Sees l o) (hne : o.stack ≠ []) : o.Amid id names ∧ ∃ n', o.Renders μ T ids n' := by
  induction ho generalizing n with
  | refl => exact ⟨h, n, hr⟩
  | @step m o l hm ho ih =>
    by_cases he : m.AtEnd id
    · -- the last step was taken, and there is no other one
      obtain ⟨w, stack, result⟩ := m
      obtain ⟨rfl, k, hk, hd⟩ := he
      rw [step_running hk, hd] at ho
      cases ho with
      | refl => exact absurd rfl hne
      | step hm' => exact absurd rfl hm'
    · obtain ⟨-, n₁, -, -, hr₁⟩ := hr.step h.sound hm (h.not_rests hr he)
      exact ih ((h.step hr hT).resolve_right he) hr₁ hne

/-- **A request to stop ends the run** and takes nothing from the kernel. -/
theorem Amid.halts_of_askedToStop (h : m.Amid id names) (hr : m.Renders μ T ids n)
    (hT : ¬ T .facade) (hm : m.askedToStop? id = some k) : m.step.Halts id k := by
  have he := not_atEnd_of_askedToStop hm
  obtain ⟨-, n', -, -, hr'⟩ := hr.step h.sound h.stack_ne (h.not_rests hr he)
  obtain ⟨hunstarted, hresult, k', hk', hh⟩ :=
    ((h.step hr hT).resolve_right he).halts hr' hT (step_of_askedToStop hm) rfl
  exact ⟨hunstarted, hresult, k', hk', hh.id_eq, hh.stopping, hh.executed, hh.now, hh.pending⟩

end Machine

end EventSim
