import EventSim.Proofs.Backends.Worlds
import EventSim.Proofs.Translation.Kernels
import EventSim.Proofs.World.Requests

/-!
# Worlds in which a program is carried out in another manner

A world renders another one if its kernels render the kernels of the other one, and if the same
kernels are behind the targets of the program and behind what the manner makes of these targets.
The handles are the same; what is traced, printed and told is left out of account.

* `RendersEnd.perform`: **a command that runs nothing ends alike**, in worlds of which the one still
  renders the other.
-/

namespace EventSim

namespace World

variable {μ : Manner} {T : Target → Prop} {ids : KernelId → Prop} {w v : World} {id : KernelId}
  {t : Target} {k l : Kernel Action} {a : Action}

/-- The kernels `ids` of `v` carry out in a manner what those of `w` carry out, and they are behind
the targets of the program.  All other kernels are the same. -/
structure Renders (μ : Manner) (T : Target → Prop) (ids : KernelId → Prop) (w v : World) :
    Prop where
  handles : v.handles = w.handles
  /-- No target is the kernel that a scenario hands over. -/
  lasting : ∀ t, T t → t ≠ .kernel .injected ∧ μ.target t ≠ .kernel .injected
  targets : ∀ t, T t →
    ∃ id, ids id ∧ w.find t = .ok (some id) ∧ v.find (μ.target t) = .ok (some id)
  kernels : ∀ id, ids id → ∃ k l, w.engine? id = some (.builtIn false k) ∧
    v.engine? id = some (.builtIn false l) ∧ k.Renders μ T l
  others : ∀ id, ¬ ids id → v.engine? id = w.engine? id

/-! ### Targets -/

/-- The program has a number for the target, and an unwatched built-in kernel is behind it. -/
def Hosts (w : World) (t : Target) : Prop :=
  ∃ n id k, t = .kernel (.numbered n) ∧ w.find t = .ok (some id) ∧
    w.engine? id = some (.builtIn false k)

/-- A kernel that is there need not be built. -/
theorem reach_of_find (h : w.find t = .ok (some id)) : w.reach t = .ok (id, w) := by
  cases t with
  | facade =>
    have hs : w.slot = some id := Except.ok.inj h
    simp only [reach, resolve, hs]
  | kernel name =>
    simp only [find] at h
    cases hl : w.lookup name with
    | error p => simp [hl] at h
    | ok i =>
      rw [hl] at h
      cases h
      simp only [reach, hl]

theorem find_forgetInjected (h : t ≠ .kernel .injected) : w.forgetInjected.find t = w.find t := by
  cases t with
  | facade => rfl
  | kernel name =>
    cases name with
    | injected => exact absurd rfl h
    | numbered n =>
      have hcount : w.forgetInjected.countNumbered = w.countNumbered := by
        unfold countNumbered forgetInjected
        rw [List.filter_filter]
        refine congrArg List.length (List.filter_congr fun p hp => ?_)
        obtain ⟨name, id⟩ := p
        cases name <;> rfl
      simp only [find, World.lookup, lookup_forgetInjected, hcount]

namespace Renders

variable (m : Renders μ T ids w v)

include m

theorem handle (name : HandleName) : v.handle name = w.handle name := by
  simp only [World.handle, m.handles]

/-- The kernel behind a target. -/
theorem target (ht : T t) : ∃ id k l, ids id ∧ w.find t = .ok (some id) ∧
    v.find (μ.target t) = .ok (some id) ∧ w.engine? id = some (.builtIn false k) ∧
    v.engine? id = some (.builtIn false l) ∧ k.Renders μ T l := by
  obtain ⟨id, hid, hw, hv⟩ := m.targets t ht
  obtain ⟨k, l, hwk, hvl, hk⟩ := m.kernels id hid
  exact ⟨id, k, l, hid, hw, hv, hwk, hvl, hk⟩

/-- The present is the same, and so is its context. -/
theorem present (ht : T t) : ∃ now context, w.nowOf t = .ok (now, w) ∧
    w.contextOf t = .ok (context, w) ∧ v.nowOf (μ.target t) = .ok (now, v) ∧
    v.contextOf (μ.target t) = .ok (context, v) := by
  obtain ⟨id, k, l, hid, hw, hv, hwk, hvl, hk⟩ := m.target ht
  refine ⟨k.now, k.context, ?_, ?_, ?_, ?_⟩
  · simp only [nowOf, reach_of_find hw, hwk, Option.map_some, Option.getD_some, Engine.now]
  · simp only [contextOf, reach_of_find hw, hwk, Option.map_some, Option.getD_some, Engine.context]
  · simp only [nowOf, reach_of_find hv, hvl, Option.map_some, Option.getD_some, Engine.now,
      hk.now_eq]
  · simp only [contextOf, reach_of_find hv, hvl, Option.map_some, Option.getD_some, Engine.context,
      hk.context_eq]

/-! ### Small changes -/

theorem releaseAll (l l' : List Action) :
    Renders μ T ids (w.releaseAll l) (v.releaseAll l') := by
  rw [releaseAll_eq, releaseAll_eq]
  exact ⟨m.handles, m.lasting, m.targets, m.kernels, m.others⟩

theorem log (e : Entry) : Renders μ T ids (w.log e) v :=
  ⟨m.handles, m.lasting, m.targets, m.kernels, m.others⟩

theorem log' (e : Entry) : Renders μ T ids w (v.log e) :=
  ⟨m.handles, m.lasting, m.targets, m.kernels, m.others⟩

/-- The trace is left out of account, on either side. -/
theorem traced (p q : Prop) [Decidable p] [Decidable q] (e e' : Engine Action) (timing : Timing) :
    Renders μ T ids (if p then w.traced e timing else w) (if q then v.traced e' timing else v) := by
  have hleft {w v : World} (m : Renders μ T ids w v) : Renders μ T ids (w.traced e timing) v := by
    cases timing <;> exact ⟨m.handles, m.lasting, m.targets, m.kernels, m.others⟩
  have hright {w v : World} (m : Renders μ T ids w v) : Renders μ T ids w (v.traced e' timing) := by
    cases timing <;> exact ⟨m.handles, m.lasting, m.targets, m.kernels, m.others⟩
  by_cases hp : p
  · by_cases hq : q
    · rw [if_pos hp, if_pos hq]
      exact hleft (hright m)
    · rw [if_pos hp, if_neg hq]
      exact hleft m
  · by_cases hq : q
    · rw [if_neg hp, if_pos hq]
      exact hright m
    · rw [if_neg hp, if_neg hq]
      exact m

theorem save (name : HandleName) (h : Handle) :
    Renders μ T ids (w.save name h) (v.save name h) :=
  ⟨congrArg ((name, h) :: ·) m.handles, m.lasting, m.targets, m.kernels, m.others⟩

theorem forgetInjected : Renders μ T ids w.forgetInjected v.forgetInjected := by
  refine ⟨m.handles, m.lasting, fun t ht => ?_, m.kernels, m.others⟩
  obtain ⟨hw, hv⟩ := m.lasting t ht
  rw [find_forgetInjected hw, find_forgetInjected hv]
  exact m.targets t ht

theorem setEngine (hid : ids id) (hk : k.Renders μ T l) :
    Renders μ T ids (w.setEngine id (.builtIn false k)) (v.setEngine id (.builtIn false l)) := by
  refine ⟨m.handles, m.lasting, m.targets, fun j hj => ?_, fun j hj => ?_⟩
  · by_cases hij : id = j
    · subst hij
      obtain ⟨_, _, hw, hv, -⟩ := m.kernels id hid
      exact ⟨k, l, engine?_setEngine_self hw _, engine?_setEngine_self hv _, hk⟩
    · rw [engine?_setEngine_ne _ hij, engine?_setEngine_ne _ hij]
      exact m.kernels j hj
  · have hij : id ≠ j := fun h => hj (h ▸ hid)
    rw [engine?_setEngine_ne _ hij, engine?_setEngine_ne _ hij]
    exact m.others j hj

end Renders

/-! ### Calls -/

/-- The calls end alike, and the one world still renders the other. -/
structure RendersEnd {ρ : Type} (μ : Manner) (T : Target → Prop) (ids : KernelId → Prop)
    (r r' : ρ × World) : Prop where
  reply : r'.1 = r.1
  world : Renders μ T ids r.2 r'.2

variable {f g : KernelId → Engine Action → World → Except Panic Reply × World}
  {f' g' : KernelId → Engine Action → Except Panic Reply × World}

theorem RendersEnd.onReached (m : Renders μ T ids w v) (ht : T t)
    (h : ∀ id k l, ids id → w.engine? id = some (.builtIn false k) →
      v.engine? id = some (.builtIn false l) → k.Renders μ T l →
      RendersEnd μ T ids (f id (.builtIn false k) w) (g id (.builtIn false l) v)) :
    RendersEnd μ T ids (w.onReached t f) (v.onReached (μ.target t) g) := by
  obtain ⟨id, k, l, hid, hw, hv, hwk, hvl, hk⟩ := m.target ht
  simp only [World.onReached, reach_of_find hw, reach_of_find hv, hwk, hvl]
  exact h id k l hid hwk hvl hk

theorem RendersEnd.onFound (m : Renders μ T ids w v) (ht : T t) (without : Reply)
    (h : ∀ id k l, ids id → w.engine? id = some (.builtIn false k) → k.Renders μ T l →
      RendersEnd μ T ids (f' id (.builtIn false k)) (g' id (.builtIn false l))) :
    RendersEnd μ T ids (w.onFound t without f') (v.onFound (μ.target t) without g') := by
  obtain ⟨id, k, l, hid, hw, hv, hwk, hvl, hk⟩ := m.target ht
  simp only [World.onFound, hw, hv, hwk, hvl]
  exact h id k l hid hwk hk

/-! ### Scheduling -/

/-- The end of a scheduling call that a kernel `k` has accepted or refused. -/
def concluded (w : World) (id : KernelId) (k : Kernel Action) (name : HandleName)
    (dropped : List Action) :
    Except SimError (Handle × Kernel Action) → Except Panic Reply × World
  | .ok (h, k') => (.ok (.handle h), (w.setEngine id (.builtIn false k')).save name h)
  | .error error =>
    (.ok (.refused error), (w.setEngine id (.builtIn false k)).releaseAll dropped)

theorem schedule_eq (hw : w.find t = .ok (some id)) (hk : w.engine? id = some (.builtIn false k))
    (timing : Timing) (name : HandleName) (a : Action) :
    w.schedule t timing name a =
      (if t = .facade then w.traced (.builtIn false k) timing else w).concluded id k name [a]
        (k.schedule timing a) := by
  simp only [World.schedule, reach_of_find hw, hk, Engine.schedule]
  cases k.schedule timing a <;> rfl

theorem stopAfter_eq (hw : w.find t = .ok (some id)) (hk : w.engine? id = some (.builtIn false k))
    (delay : Time) (name : HandleName) :
    w.stopAfter t delay name = w.concluded id k name [] (k.stopAfter delay) := by
  simp only [World.stopAfter, World.onReached, reach_of_find hw, hk, Engine.stopAfter]
  cases k.stopAfter delay <;> rfl

theorem RendersEnd.concluded (m : Renders μ T ids w v) (hid : ids id) (hk : k.Renders μ T l)
    {r r' : Except SimError (Handle × Kernel Action)} (hr : Kernel.RendersIssue μ T r r')
    (name : HandleName) (dropped dropped' : List Action) :
    RendersEnd μ T ids (w.concluded id k name dropped r) (v.concluded id l name dropped' r') := by
  cases hr with
  | refused error => exact ⟨rfl, (m.setEngine hid hk).releaseAll _ _⟩
  | accepted h hk' => exact ⟨rfl, (m.setEngine hid hk').save name h⟩

theorem RendersEnd.schedule (m : Renders μ T ids w v) (s : w.Sound) (ht : T t) (timing : Timing)
    (name : HandleName) (ha : a.Directed T) :
    RendersEnd μ T ids (w.schedule t timing name a)
      (v.schedule (μ.target t) timing name (a.translate μ)) := by
  obtain ⟨id, k, l, hid, hw, hv, hwk, hvl, hk⟩ := m.target ht
  have hm := m.traced (t = .facade) (μ.target t = .facade) (.builtIn false k) (.builtIn false l)
    timing
  rw [schedule_eq hw hwk, schedule_eq hv hvl]
  exact .concluded hm hid hk (hk.schedule (s.kernels hwk) timing ha) name _ _

theorem RendersEnd.stopAfter (m : Renders μ T ids w v) (s : w.Sound) (ht : T t) (delay : Time)
    (name : HandleName) (hμ : μ.unstopped = false) :
    RendersEnd μ T ids (w.stopAfter t delay name) (v.stopAfter (μ.target t) delay name) := by
  obtain ⟨id, k, l, hid, hw, hv, hwk, hvl, hk⟩ := m.target ht
  rw [stopAfter_eq hw hwk, stopAfter_eq hv hvl]
  exact .concluded m hid hk (hk.stopAfter (s.kernels hwk) hμ delay) name _ _

/-- An event that does nothing is scheduled where a stop would be. -/
theorem RendersEnd.stopAfter_schedule (m : Renders μ T ids w v) (s : w.Sound) (ht : T t)
    (delay : Time) (name : HandleName) (hμ : μ.unstopped = true) :
    RendersEnd μ T ids (w.stopAfter t delay name)
      (v.schedule (μ.target t) (.after delay) name (.silent [])) := by
  obtain ⟨id, k, l, hid, hw, hv, hwk, hvl, hk⟩ := m.target ht
  have hm := m.traced False (μ.target t = .facade) (.builtIn false k) (.builtIn false l)
    (.after delay)
  rw [if_neg not_false] at hm
  rw [stopAfter_eq hw hwk, schedule_eq hv hvl]
  exact .concluded hm hid hk (hk.stopAfter_schedule (s.kernels hwk) hμ delay) name _ _

theorem RendersEnd.scheduleEach (ht : T t) (name : Option HandleName)
    (ha : ∀ i, (a.numbered i).Directed T) (delays : List Time) (i : Nat)
    (m : Renders μ T ids w v) (s : w.Sound) :
    RendersEnd μ T ids (w.scheduleEach t name a i delays)
      (v.scheduleEach (μ.target t) name (a.translate μ) i delays) := by
  induction delays generalizing w v i with
  | nil => exact ⟨rfl, m⟩
  | cons delay rest ih =>
    have h := RendersEnd.schedule m s ht (.after delay)
      (name.getD (.word ((a.numbered i).tag.getD ""))) (ha i)
    have hs := s.schedule t (.after delay) (name.getD (.word ((a.numbered i).tag.getD "")))
      (a.numbered i)
    have htag : ((a.translate μ).numbered i).tag = (a.numbered i).tag := by
      rw [← Action.translate_numbered, Action.tag_translate]
    unfold World.scheduleEach
    dsimp only
    rw [htag, ← Action.translate_numbered]
    generalize w.schedule t _ _ _ = r at h hs
    generalize v.schedule _ _ _ _ = r' at h
    obtain ⟨reply, w'⟩ := r
    obtain ⟨reply', v'⟩ := r'
    obtain ⟨hr, hm⟩ := h
    cases hr
    cases reply with
    | error p => exact ⟨rfl, hm⟩
    | ok reply =>
      have h := ih (i + 1) hm hs
      dsimp only at h ⊢
      generalize w'.scheduleEach t name a (i + 1) rest = r at h
      generalize v'.scheduleEach _ name _ (i + 1) rest = r' at h
      obtain ⟨replies, w''⟩ := r
      obtain ⟨replies', v''⟩ := r'
      obtain ⟨hr, hm'⟩ := h
      cases hr
      cases replies <;> exact ⟨rfl, hm'⟩

theorem ask_eq (hw : w.find t = .ok (some id)) (hk : w.engine? id = some (.builtIn false k))
    (q : Query) : w.ask t q = (.ok (answer (.builtIn false k) q), w) := by
  cases q with
  | systemId =>
    simp only [ask, onFound, hw, hk]
    rfl
  | _ => simp only [ask, onReached, reach_of_find hw, hk]

theorem RendersEnd.ask (m : Renders μ T ids w v) (ht : T t) (q : Query) :
    RendersEnd μ T ids (w.ask t q) (v.ask (μ.target t) q) := by
  cases q with
  | systemId =>
    refine RendersEnd.onFound m ht _ fun id k l _ _ hk => ⟨?_, m⟩
    simp only [Engine.systemId, hk.systemId_eq]
  | _ =>
    refine RendersEnd.onReached m ht fun id k l _ _ _ hk => ⟨?_, m⟩
    simp only [answer, Engine.isFinished, Engine.now, Engine.context, Engine.executed, Engine.id,
      hk.isFinished_eq, hk.now_eq, hk.context_eq, hk.executed_eq, hk.id_eq]

/-! ### Handles -/

theorem cancel_eq (hw : w.find t = .ok (some id)) (hk : w.engine? id = some (.builtIn false k))
    (h : Handle) : w.cancel t h = (.ok .done,
      (w.setEngine id (.builtIn false (k.cancel h).2)).releaseAll (k.cancel h).1.toList) := by
  simp only [World.cancel, World.onFound, hw, hk, Engine.cancel]

theorem remove_eq (hw : w.find t = .ok (some id)) (hk : w.engine? id = some (.builtIn false k))
    (h : Handle) : w.remove t h = (.ok .done,
      (w.setEngine id (.builtIn false (k.remove h).2)).releaseAll (k.remove h).1.toList) := by
  simp only [World.remove, World.onFound, hw, hk, Engine.remove]

theorem RendersEnd.cancel (m : Renders μ T ids w v) (s : w.Sound) (ht : T t) (h : Handle) :
    RendersEnd μ T ids (w.cancel t h) (v.cancel (μ.target t) h) := by
  obtain ⟨id, k, l, hid, hw, hv, hwk, hvl, hk⟩ := m.target ht
  rw [cancel_eq hw hwk, cancel_eq hv hvl]
  exact ⟨rfl, (m.setEngine hid (hk.cancel (s.kernels hwk))).releaseAll _ _⟩

theorem RendersEnd.remove (m : Renders μ T ids w v) (s : w.Sound) (ht : T t) {h : Handle}
    (hh : w.Keeps h) : RendersEnd μ T ids (w.remove t h) (v.remove (μ.target t) h) := by
  obtain ⟨id, k, l, hid, hw, hv, hwk, hvl, hk⟩ := m.target ht
  rw [remove_eq hw hwk, remove_eq hv hvl]
  exact ⟨rfl, (m.setEngine hid (hk.remove (s.kernels hwk) (s.knows hwk hh))).releaseAll _ _⟩

/-- An event is removed where it would be cancelled. -/
theorem RendersEnd.cancel_remove (m : Renders μ T ids w v) (s : w.Sound) (ht : T t) {h : Handle}
    (hh : w.Keeps h) : RendersEnd μ T ids (w.cancel t h) (v.remove (μ.target t) h) := by
  obtain ⟨id, k, l, hid, hw, hv, hwk, hvl, hk⟩ := m.target ht
  rw [cancel_eq hw hwk, remove_eq hv hvl]
  exact ⟨rfl, (m.setEngine hid (hk.cancel_remove (s.kernels hwk) (s.knows hwk hh))).releaseAll _ _⟩

/-! ### All commands -/

/-- **A command that runs nothing ends alike.** -/
theorem RendersEnd.perform (m : Renders μ T ids w v) (s : w.Sound) {x : Command}
    (hx : x.All (Command.Directed T)) :
    RendersEnd μ T ids (w.perform x) (v.perform (x.translate μ)) := by
  have hself := hx.self
  cases x with
  | schedule t timing name a =>
    rw [Command.translate]
    exact .schedule m s hself.1 timing name (hx.directed rfl)
  | scheduleEach t delays name a =>
    have h := RendersEnd.scheduleEach hself.1 name (fun i => hx.directed ⟨i, rfl⟩) delays 0 m s
    rw [Command.translate, World.perform, World.perform]
    generalize w.scheduleEach t name a 0 delays = r at h
    generalize v.scheduleEach _ name _ 0 delays = r' at h
    obtain ⟨replies, w'⟩ := r
    obtain ⟨replies', v'⟩ := r'
    obtain ⟨hr, hm⟩ := h
    cases hr
    cases replies <;> exact ⟨rfl, hm⟩
  | chain t tag delay length name =>
    rw [Command.translate]
    cases length with
    | zero => exact ⟨rfl, m⟩
    | succ left =>
      have h := RendersEnd.schedule m s hself (.after delay) name
        (hx.directed (rfl : _ = World.link t tag delay left name))
      rwa [translate_link] at h
  | stopAfter t delay name =>
    rw [Command.translate]
    cases hμ : μ.unstopped with
    | true => exact .stopAfter_schedule m s hself delay name hμ
    | false => exact .stopAfter m s hself delay name hμ
  | cancel t name =>
    have hkeeps := keeps_handle w name
    rw [Command.translate]
    cases hμ : μ.eager with
    | true =>
      show RendersEnd μ T ids (w.cancel t _) (v.remove (μ.target t) (v.handle name))
      rw [m.handle]
      exact .cancel_remove m s hself hkeeps
    | false =>
      show RendersEnd μ T ids (w.cancel t _) (v.cancel (μ.target t) (v.handle name))
      rw [m.handle]
      exact .cancel m s hself _
  | remove t name =>
    have hkeeps := keeps_handle w name
    show RendersEnd μ T ids (w.remove t _) (v.remove (μ.target t) (v.handle name))
    rw [m.handle]
    exact .remove m s hself hkeeps
  | isExpired t name =>
    simp only [Command.translate, World.perform, m.handle]
    refine RendersEnd.onFound m hself _ fun id k l _ _ hk => ⟨?_, m⟩
    simp only [Engine.isExpired, hk.isExpired_eq]
  | delayLeft t name =>
    simp only [Command.translate, World.perform, m.handle]
    refine RendersEnd.onReached m hself fun id k l _ _ _ hk => ?_
    simp only [Engine.delayLeft, hk.delayLeft_eq]
    split <;> exact ⟨rfl, m⟩
  | stop t =>
    rw [Command.translate]
    cases hμ : μ.unstopped with
    | true =>
      obtain ⟨id, k, l, hid, hw, hv, hwk, hvl, hk⟩ := m.target hself
      have hset := m.setEngine hid (hk.stop_apart hμ)
      rw [setEngine_of_engine? hvl] at hset
      simp only [World.perform, World.onReached, reach_of_find hw, hwk]
      exact ⟨rfl, hset⟩
    | false =>
      refine RendersEnd.onReached m hself fun id k l hid _ _ hk => ⟨rfl, ?_⟩
      exact m.setEngine hid (hk.stop hμ)
  | attach t b =>
    rw [Command.translate]
    refine RendersEnd.onReached m hself.1 fun id k l hid hwk hvl hk => ⟨rfl, ?_⟩
    simp only [World.attach, hwk, hvl]
    exact m.setEngine hid (hk.attach hself.2)
  | query t q =>
    rw [Command.translate]
    exact .ask m hself q
  | inspect name =>
    simp only [Command.translate, World.perform, m.handle]
    exact ⟨rfl, m⟩
  | same x y =>
    simp only [Command.translate, World.perform, m.handle]
    exact ⟨rfl, m⟩
  | idle | panic | run | destroy => exact ⟨rfl, m⟩
  | _ => exact hself.elim

/-! ### Worlds in a manner -/

end World

/-- The engine in a manner, if it is an unwatched kernel. -/
def Engine.translate (μ : Manner) : Engine Action → Engine Action
  | .builtIn false k =>
    .builtIn false
      (k.translate μ (k.scheduler.mapPayloads (Payload.translate μ)) k.cancelled)
  | e => e

namespace World

/-- The world with all that its kernels store said in a manner. -/
def translate (μ : Manner) (w : World) : World :=
  { w with engines := w.engines.map (Engine.translate μ) }

/-- A program is carried out in a manner by the world that is translated into it. -/
theorem renders_translate (s : w.Sound) (hq : w.Holds (Action.Directed w.Hosts))
    (hμ : ∀ t, μ.target t = t) :
    Renders μ w.Hosts (fun id => ∃ k, w.engine? id = some (.builtIn false k)) w
      (w.translate μ) where
  handles := rfl
  lasting := by
    rintro t ⟨n, id, k, rfl, -⟩
    rw [hμ]
    exact ⟨nofun, nofun⟩
  targets := by
    rintro t ⟨n, id, k, -, hf, hk⟩
    rw [hμ]
    exact ⟨id, ⟨k, hk⟩, hf, hf⟩
  kernels := by
    rintro id ⟨k, hk⟩
    refine ⟨k, _, hk, ?_, Kernel.renders_translate (s.kernels hk) (hq id false k hk)⟩
    show (w.engines.map (Engine.translate μ))[id]? = _
    rw [List.getElem?_map, show w.engines[id]? = _ from hk]
    rfl
  others := by
    intro id hid
    show (w.engines.map (Engine.translate μ))[id]? = w.engines[id]?
    rw [List.getElem?_map]
    cases he : w.engines[id]? with
    | none => rfl
    | some e =>
      cases e with
      | fixed k => rfl
      | builtIn watched k =>
        cases watched with
        | true => rfl
        | false => exact absurd ⟨k, he⟩ hid

end World

end EventSim
