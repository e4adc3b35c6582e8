import EventSim.Proofs.Backends.Worlds
import EventSim.Proofs.Kernel.Recasts
import EventSim.Proofs.Refusals.Programs

/-!
# Worlds without refused calls

`Kernel.purged T` takes the calls that were refused according to `T` out of all actions that a
kernel holds.  `World.Purges` says that the kernels of one world are purged ones of the other and
that the worlds agree in all the rest; their journals may have begun differently, but from then on
they have told the same.

* `PurgesEnd.perform`: **a command that is not refused ends alike in both**, if `T` tells how.
* `perform_of_refused`: **a call that is refused leaves nothing but what the journal is told**: its
  action is given up, once.
-/

namespace EventSim

/-- The kernel without refused calls in its actions. -/
def Kernel.purged (T : Replies) (k : Kernel Action) : Kernel Action :=
  k.recast fun uid a => a.purged T (k.id, uid)

/-- The engine without refused calls in its actions. -/
def Engine.purged (T : Replies) : Engine Action → Engine Action
  | .builtIn watched k => .builtIn watched (k.purged T)
  | .fixed k => .fixed k

variable {T : Replies}

namespace Kernel

variable {k k' : Kernel Action} {d : Deed Action} {h : Handle} {a : Action}

/-- A deed leaves the identity as it is, by which the calls are found. -/
theorem purged_of_does (hd : k.Does d k') :
    k'.purged T = k'.recast fun uid a => a.purged T (k.id, uid) := by
  rw [Kernel.purged, hd.id_eq]

/-- The handle of an accepted event names the kernel and the next number. -/
theorem Issues.names {α : Type} {k k' : Kernel α} {d : Deed α} (hi : k.Issues d h k') :
    h.owner = some k.id ∧ h.uid = k.nextUid := by
  cases hi <;> exact ⟨rfl, rfl⟩

theorem schedule_purged {timing : Timing} (hs : k.schedule timing a = .ok (h, k')) :
    (k.purged T).schedule timing (a.purged T (k.id, k.nextUid)) = .ok (h, k'.purged T) := by
  obtain ⟨d, -, hi⟩ := issues_of_schedule hs
  rw [purged_of_does (.issued hi)]
  have hr := k.schedule_recast (g := fun uid a => a.purged T (k.id, uid)) timing a
  rw [hs] at hr
  exact hr

theorem stopAfter_purged (k : Kernel Action) (delay : Time) : (k.purged T).stopAfter delay =
    (k.stopAfter delay).map fun r => (r.1, r.2.purged T) := by
  have hr := k.stopAfter_recast (g := fun uid a => a.purged T (k.id, uid)) delay
  cases hs : k.stopAfter delay with
  | error e =>
    rw [hs] at hr
    exact hr
  | ok r =>
    obtain ⟨h, k'⟩ := r
    obtain ⟨key, hi⟩ := issues_of_stopAfter hs
    rw [hs] at hr
    rw [Except.map, purged_of_does (.issued hi)]
    exact hr

theorem remove_purged (k : Kernel Action) (h : Handle) : (k.purged T).remove h =
    ((k.remove h).1.map fun a => a.purged T (k.id, h.uid), (k.remove h).2.purged T) := by
  rw [purged_of_does (.removed k h)]
  exact k.remove_recast h

theorem cancel_purged (k : Kernel Action) (h : Handle) : (k.purged T).cancel h =
    ((k.cancel h).1.map fun a => a.purged T (k.id, h.uid), (k.cancel h).2.purged T) := by
  rw [purged_of_does (.cancelled k h)]
  exact k.cancel_recast h

end Kernel

/-- An action without its refused calls is given up in the same words. -/
theorem Action.filterMap_tag_purged (event : KernelId × Nat) (l : List Action) :
    (l.map fun a => a.purged T event).filterMap Action.tag = l.filterMap Action.tag := by
  rw [List.filterMap_map]
  exact List.filterMap_congr fun a _ => a.tag_purged

namespace World

/-- The kernels of the second world are those of the first without refused calls, and the worlds
agree in the rest; what was told since the journals were `b` and `c` is the same. -/
inductive Purges (T : Replies) (b c : List Entry) : World → World → Prop
  | mk {w : World} {j : List Entry} : w.journal = j ++ b →
      Purges T b c w { w with engines := w.engines.map (Engine.purged T), journal := j ++ c }

variable {b c : List Entry} {w v : World} {id : KernelId} {t : Target} {e : Engine Action}
  {h : Handle} {name : HandleName}

namespace Purges

/-- What was told so far does not count any more. -/
theorem rebase (m : Purges T b c w v) : Purges T w.journal v.journal w v := by
  obtain ⟨hj⟩ := m
  exact .mk (j := []) rfl

theorem lookup (m : Purges T b c w v) (name : KernelName) : v.lookup name = w.lookup name := by
  cases m
  rfl

theorem handle (m : Purges T b c w v) (name : HandleName) : v.handle name = w.handle name := by
  cases m
  rfl

theorem engine? (m : Purges T b c w v) (id : KernelId) :
    v.engine? id = (w.engine? id).map (Engine.purged T) := by
  obtain ⟨-⟩ := m
  exact List.getElem?_map ..

theorem reach (m : Purges T b c w v) (ht : t.IsKernel) :
    (∃ p, w.reach t = .error p ∧ v.reach t = .error p) ∨
      ∃ id, w.reach t = .ok (id, w) ∧ v.reach t = .ok (id, v) := by
  cases t with
  | facade => exact ht.elim
  | kernel name =>
    simp only [World.reach, m.lookup]
    cases w.lookup name with
    | error p => exact .inl ⟨p, rfl, rfl⟩
    | ok id => exact .inr ⟨id, rfl, rfl⟩

theorem find (m : Purges T b c w v) (ht : t.IsKernel) : v.find t = w.find t := by
  cases t with
  | facade => exact ht.elim
  | kernel name => simp only [World.find, m.lookup]

theorem nowOf (m : Purges T b c w v) (ht : t.IsKernel) :
    (∃ p, w.nowOf t = .error p ∧ v.nowOf t = .error p) ∨
      ∃ now, w.nowOf t = .ok (now, w) ∧ v.nowOf t = .ok (now, v) := by
  unfold World.nowOf
  rcases m.reach ht with ⟨p, hw, hv⟩ | ⟨id, hw, hv⟩
  · rw [hw, hv]
    exact .inl ⟨p, rfl, rfl⟩
  · rw [hw, hv]
    refine .inr ⟨_, rfl, ?_⟩
    dsimp only
    rw [m.engine?]
    rcases w.engine? id with _ | ⟨_ | _⟩ <;> rfl

theorem contextOf (m : Purges T b c w v) (ht : t.IsKernel) :
    (∃ p, w.contextOf t = .error p ∧ v.contextOf t = .error p) ∨
      ∃ context, w.contextOf t = .ok (context, w) ∧ v.contextOf t = .ok (context, v) := by
  unfold World.contextOf
  rcases m.reach ht with ⟨p, hw, hv⟩ | ⟨id, hw, hv⟩
  · rw [hw, hv]
    exact .inl ⟨p, rfl, rfl⟩
  · rw [hw, hv]
    refine .inr ⟨_, rfl, ?_⟩
    dsimp only
    rw [m.engine?]
    rcases w.engine? id with _ | ⟨_ | _⟩ <;> rfl

/-! ### Small changes -/

theorem log (m : Purges T b c w v) (e : Entry) : Purges T b c (w.log e) (v.log e) := by
  obtain ⟨hj⟩ := m
  rename_i j
  exact .mk (w := w.log e) (j := e :: j) (congrArg (e :: ·) hj)

theorem report (m : Purges T b c w v) (event : String) :
    Purges T b c (w.report event) (v.report event) := by
  obtain ⟨hj⟩ := m
  exact .mk (w := w.report event) (j := _ :: _) (congrArg (_ :: ·) hj)

/-- One of the worlds alone is told something. -/
theorem told (m : Purges T b c w v) (news : List Entry) :
    Purges T (news ++ w.journal) v.journal { w with journal := news ++ w.journal } v := by
  obtain ⟨-⟩ := m
  exact .mk (w := { w with journal := news ++ w.journal }) (j := []) rfl

/-- Actions are given up that have the same tags. -/
theorem releaseAll (m : Purges T b c w v) {l l' : List Action}
    (hl : l'.filterMap Action.tag = l.filterMap Action.tag) :
    Purges T b c (w.releaseAll l) (v.releaseAll l') := by
  have hr : releases l' = releases l := by rw [releases, hl, releases]
  obtain ⟨hj⟩ := m
  rename_i j
  have hmk := Purges.mk (T := T) (b := b) (c := c) (j := releases l ++ j)
    (w := { w with journal := releases l ++ w.journal }) (by rw [hj, List.append_assoc])
  rw [List.append_assoc] at hmk
  rwa [releaseAll_eq, releaseAll_eq, hr]

theorem release (m : Purges T b c w v) (a : Action) :
    Purges T b c (w.release a) (v.release a) := m.releaseAll (l := [a]) rfl

theorem save (m : Purges T b c w v) (name : HandleName) (h : Handle) :
    Purges T b c (w.save name h) (v.save name h) := by
  obtain ⟨hj⟩ := m
  exact .mk (w := w.save name h) hj

theorem forgetInjected (m : Purges T b c w v) : Purges T b c w.forgetInjected v.forgetInjected := by
  obtain ⟨hj⟩ := m
  exact .mk (w := w.forgetInjected) hj

theorem setEngine (m : Purges T b c w v) (id : KernelId) (e : Engine Action) :
    Purges T b c (w.setEngine id e) (v.setEngine id (e.purged T)) := by
  obtain ⟨hj⟩ := m
  have hset : (w.setEngine id e).engines.map (Engine.purged T) =
      (w.engines.map (Engine.purged T)).set id (e.purged T) := List.map_set ..
  have hmk := Purges.mk (T := T) (c := c) (w := w.setEngine id e) hj
  rw [hset] at hmk
  exact hmk

end Purges

/-! ### Calls that are not refused -/

/-- The calls end alike, in worlds that agree apart from refused calls. -/
structure PurgesEnd {ρ : Type} (T : Replies) (b c : List Entry) (r r' : ρ × World) : Prop where
  reply : r'.1 = r.1
  world : Purges T b c r.2 r'.2

variable {f g : KernelId → Engine Action → World → Except Panic Reply × World}
  {f' g' : KernelId → Engine Action → Except Panic Reply × World}

namespace PurgesEnd

theorem onReached (m : Purges T b c w v) (ht : t.IsKernel)
    (h : ∀ id e, w.engine? id = some e → PurgesEnd T b c (f id e w) (g id (e.purged T) v)) :
    PurgesEnd T b c (w.onReached t f) (v.onReached t g) := by
  unfold World.onReached
  rcases m.reach ht with ⟨p, hw, hv⟩ | ⟨id, hw, hv⟩
  · rw [hw, hv]
    exact ⟨rfl, m⟩
  · rw [hw, hv]
    dsimp only
    rw [m.engine?]
    cases he : w.engine? id with
    | none => exact ⟨rfl, m⟩
    | some e => exact h id e he

theorem onFound (m : Purges T b c w v) (ht : t.IsKernel) (without : Reply)
    (h : ∀ id e, w.engine? id = some e → PurgesEnd T b c (f' id e) (g' id (e.purged T))) :
    PurgesEnd T b c (w.onFound t without f') (v.onFound t without g') := by
  unfold World.onFound
  rw [m.find ht]
  split
  · exact ⟨rfl, m⟩
  · exact ⟨rfl, m⟩
  · rename_i id _
    rw [m.engine?]
    cases he : w.engine? id with
    | none => exact ⟨rfl, m⟩
    | some e => exact h id e he

/-- A scheduling call stores the purged action, which its handle leads to. -/
theorem schedule (m : Purges T b c w v) (ht : t.IsKernel) {timing : Timing} {a : Action}
    (hr : ∀ e, (w.schedule t timing name a).1 ≠ .ok (.refused e)) :
    PurgesEnd T b c (w.perform (.schedule t timing name a))
      (v.perform ((Command.schedule t timing name a).purged T
        (w.schedule t timing name a).1.toOption)) := by
  have hfacade : ¬ t = .facade := fun h => by
    rw [h] at ht
    exact ht
  rw [Command.purged, World.perform, World.perform]
  unfold World.schedule at hr ⊢
  rcases m.reach ht with ⟨p, hw, hv⟩ | ⟨id, hw, hv⟩
  · rw [hw, hv]
    exact ⟨rfl, m.release a⟩
  · rw [hw, hv]
    rw [hw] at hr
    dsimp only at hr ⊢
    rw [m.engine?]
    cases he : w.engine? id with
    | none => exact ⟨rfl, m⟩
    | some e =>
      rw [he] at hr
      simp only [hfacade, if_false, Option.map_some] at hr ⊢
      cases e with
      | fixed k =>
        exact ⟨rfl, ((m.setEngine id (.fixed k)).release a).save name _⟩
      | builtIn watched k =>
        simp only [Engine.schedule] at hr ⊢
        cases hs : k.schedule timing a with
        | error error =>
          rw [hs] at hr
          exact absurd rfl (hr error)
        | ok r =>
          obtain ⟨h, k'⟩ := r
          obtain ⟨d, -, hi⟩ := Kernel.issues_of_schedule hs
          obtain ⟨howner, huid⟩ := hi.names
          have hevent : Reply.event? (some (.handle h)) = some (k.id, k.nextUid) := by
            rw [Reply.event?, howner, huid]
            rfl
          simp only [Except.toOption, hevent, Engine.purged, Kernel.schedule_purged hs]
          exact ⟨rfl, (m.setEngine id (.builtIn watched k')).save name h⟩

theorem stopAfter (m : Purges T b c w v) (ht : t.IsKernel) (delay : Time) (name : HandleName) :
    PurgesEnd T b c (w.stopAfter t delay name) (v.stopAfter t delay name) := by
  refine onReached m ht fun id e _ => ?_
  cases e with
  | fixed k => exact ⟨rfl, (m.setEngine id (.fixed k)).save name _⟩
  | builtIn watched k =>
    simp only [Engine.stopAfter, Engine.purged, Kernel.stopAfter_purged]
    cases k.stopAfter delay with
    | error e => exact ⟨rfl, m.setEngine id (.builtIn watched k)⟩
    | ok r => exact ⟨rfl, (m.setEngine id (.builtIn watched r.2)).save name r.1⟩

theorem remove (m : Purges T b c w v) (ht : t.IsKernel) (h : Handle) :
    PurgesEnd T b c (w.remove t h) (v.remove t h) := by
  refine onFound m ht .done fun id e _ => ⟨rfl, ?_⟩
  cases e with
  | fixed k => exact (m.setEngine id (.fixed k)).releaseAll rfl
  | builtIn watched k =>
    simp only [Engine.remove, Engine.purged, Kernel.remove_purged, Option.toList_map]
    exact (m.setEngine id (.builtIn watched _)).releaseAll (Action.filterMap_tag_purged _ _)

theorem cancel (m : Purges T b c w v) (ht : t.IsKernel) (h : Handle) :
    PurgesEnd T b c (w.cancel t h) (v.cancel t h) := by
  refine onFound m ht .done fun id e _ => ⟨rfl, ?_⟩
  cases e with
  | fixed k => exact (m.setEngine id (.fixed k)).releaseAll rfl
  | builtIn watched k =>
    simp only [Engine.cancel, Engine.purged, Kernel.cancel_purged, Option.toList_map]
    exact (m.setEngine id (.builtIn watched _)).releaseAll (Action.filterMap_tag_purged _ _)

theorem isExpired (m : Purges T b c w v) (ht : t.IsKernel) (h : Handle) :
    PurgesEnd T b c (w.isExpired t h) (v.isExpired t h) := by
  refine onFound m ht _ fun id e _ => ⟨?_, m⟩
  cases e with
  | fixed k => rfl
  | builtIn watched k =>
    simp only [Engine.isExpired, Engine.purged, Kernel.purged, Kernel.isExpired_recast]

theorem delayLeft (m : Purges T b c w v) (ht : t.IsKernel) (h : Handle) :
    PurgesEnd T b c (w.delayLeft t h) (v.delayLeft t h) := by
  refine onReached m ht fun id e _ => ?_
  have he : (e.purged T).delayLeft h = e.delayLeft h := by
    cases e with
    | fixed k => rfl
    | builtIn watched k =>
      simp only [Engine.delayLeft, Engine.purged, Kernel.purged, Kernel.delayLeft_recast]
  rw [he]
  split <;> exact ⟨rfl, m⟩

theorem attach (m : Purges T b c w v) (ht : t.IsKernel) (backend : Backend) :
    PurgesEnd T b c (w.perform (.attach t backend)) (v.perform (.attach t backend)) := by
  refine onReached m ht fun id e he => ⟨rfl, ?_⟩
  have hv : v.engine? id = some (e.purged T) := by rw [m.engine?, he]; rfl
  have hkernel : (e.purged T).onKernel (Kernel.attach · backend) =
      (e.onKernel (Kernel.attach · backend)).purged T := by
    cases e with
    | fixed k => rfl
    | builtIn watched k =>
      simp only [Engine.onKernel, Engine.purged, Kernel.purged, Kernel.attach_recast]
      rfl
  have hwatched : (e.purged T).isWatched = e.isWatched := by cases e <;> rfl
  simp only [World.attach, he, hv, hkernel, hwatched]
  split
  · exact (m.report _).setEngine id _
  · exact m.setEngine id _

theorem ask (m : Purges T b c w v) (ht : t.IsKernel) (q : Query) :
    PurgesEnd T b c (w.ask t q) (v.ask t q) := by
  have hanswer (e : Engine Action) (q : Query) : answer (e.purged T) q = answer e q := by
    cases e <;> cases q <;> rfl
  cases q with
  | systemId =>
    refine onFound m ht _ fun id e _ => ⟨?_, m⟩
    exact congrArg Except.ok (hanswer e .systemId)
  | _ =>
    refine onReached m ht fun id e _ => ⟨?_, m⟩
    exact congrArg Except.ok (hanswer e _)

/-- **A command that is not refused ends alike in both worlds.** -/
theorem perform (m : Purges T b c w v) {x : Command} (hx : x.OnKernel)
    (hr : ∀ e, (w.perform x).1 ≠ .ok (.refused e)) :
    PurgesEnd T b c (w.perform x) (v.perform (x.purged T (w.perform x).1.toOption)) := by
  cases x with
  | schedule t timing name a => exact schedule m hx.1 hr
  | stopAfter t delay name => exact stopAfter m hx delay name
  | cancel t name =>
    simp only [Command.purged, World.perform, m.handle]
    exact cancel m hx _
  | remove t name =>
    simp only [Command.purged, World.perform, m.handle]
    exact remove m hx _
  | isExpired t name =>
    simp only [Command.purged, World.perform, m.handle]
    exact isExpired m hx _
  | delayLeft t name =>
    simp only [Command.purged, World.perform, m.handle]
    exact delayLeft m hx _
  | stop t =>
    refine onReached m hx fun id e _ => ⟨rfl, ?_⟩
    cases e with
    | fixed k => exact m.setEngine id (.fixed k)
    | builtIn watched k => exact m.setEngine id (.builtIn watched k.stop)
  | attach t backend => exact attach m hx backend
  | query t q => exact ask m hx q
  | inspect name =>
    simp only [Command.purged, World.perform, m.handle]
    exact ⟨rfl, m⟩
  | same x y =>
    simp only [Command.purged, World.perform, m.handle]
    exact ⟨rfl, m⟩
  | forge source time uid context teardown name =>
    simp only [Command.purged, World.perform, m.handle]
    exact ⟨rfl, m.save name _⟩
  | idle | panic | run | destroy => exact ⟨rfl, m⟩
  | _ => exact hx.elim

end PurgesEnd

/-! ### Calls that are refused -/

variable {error : SimError}

theorem reach_of_isKernel (ht : t.IsKernel) (w : World) :
    (∃ p, w.reach t = .error p) ∨ ∃ id, w.reach t = .ok (id, w) := by
  cases t with
  | facade => exact ht.elim
  | kernel name =>
    simp only [reach]
    cases w.lookup name with
    | error p => exact .inl ⟨p, rfl⟩
    | ok id => exact .inr ⟨id, rfl⟩

/-- Nobody but the kernel refuses a call. -/
theorem onReached_refused (ht : t.IsKernel) (h : (w.onReached t f).1 = .ok (.refused error)) :
    ∃ id e, w.engine? id = some e ∧ (f id e w).1 = .ok (.refused error) ∧
      w.onReached t f = f id e w := by
  unfold onReached at h ⊢
  rcases reach_of_isKernel ht w with ⟨p, hreach⟩ | ⟨id, hreach⟩
  · rw [hreach] at h
    cases h
  · rw [hreach] at h ⊢
    dsimp only at h ⊢
    cases he : w.engine? id with
    | none =>
      rw [he] at h
      cases h
    | some e =>
      rw [he] at h
      exact ⟨id, e, he, h, rfl⟩

theorem onFound_ne_refused {without : Reply} (hw : without ≠ .refused error)
    (h : ∀ id e, (f' id e).1 ≠ .ok (.refused error)) :
    (w.onFound t without f').1 ≠ .ok (.refused error) := by
  unfold onFound
  split
  · nofun
  · simpa using hw
  · split
    · simpa using hw
    · exact h _ _

theorem answer_ne_refused (e : Engine Action) (q : Query) : answer e q ≠ .refused error := by
  cases q <;> nofun

/-- A scheduling call that is refused gives its action up. -/
theorem schedule_of_refused {timing : Timing} {a : Action} (ht : t.IsKernel)
    (hr : (w.schedule t timing name a).1 = .ok (.refused error)) :
    (Command.schedule t timing name a).Refusable ∧
      (w.schedule t timing name a).2 = w.releaseAll [a] := by
  have hfacade : ¬ t = .facade := fun h => by
    rw [h] at ht
    exact ht
  unfold schedule at hr ⊢
  rcases reach_of_isKernel ht w with ⟨p, hreach⟩ | ⟨id, hreach⟩
  · rw [hreach] at hr
    cases hr
  · rw [hreach] at hr ⊢
    dsimp only at hr ⊢
    cases he : w.engine? id with
    | none =>
      rw [he] at hr
      cases hr
    | some e =>
      rw [he] at hr
      cases e with
      | fixed k => cases hr
      | builtIn watched k =>
        simp only [hfacade, if_false, Engine.schedule] at hr ⊢
        cases hs : k.schedule timing a with
        | ok r =>
          rw [hs] at hr
          cases hr
        | error e =>
          simp only [setEngine_of_engine? he, and_true]
          cases timing with
          | after | under => trivial
          | immediately | atTeardown => cases hs

theorem stopAfter_of_refused {delay : Time} (ht : t.IsKernel)
    (hr : (w.stopAfter t delay name).1 = .ok (.refused error)) :
    (w.stopAfter t delay name).2 = w := by
  unfold stopAfter at hr ⊢
  obtain ⟨id, e, he, hr, hw⟩ := onReached_refused ht hr
  rw [hw]
  cases e with
  | fixed k => cases hr
  | builtIn watched k =>
    simp only [Engine.stopAfter] at hr ⊢
    cases hs : k.stopAfter delay with
    | ok r =>
      rw [hs] at hr
      cases hr
    | error e => exact setEngine_of_engine? he

theorem delayLeft_of_refused (ht : t.IsKernel)
    (hr : (w.delayLeft t h).1 = .ok (.refused error)) : (w.delayLeft t h).2 = w := by
  unfold delayLeft at hr ⊢
  obtain ⟨id, e, he, hr, hw⟩ := onReached_refused ht hr
  rw [hw]
  split <;> rfl

/-- **A call that is refused leaves the world as it was**: its action is given up and nothing else
happens. -/
theorem perform_of_refused {x : Command} (hx : x.OnKernel)
    (hr : (w.perform x).1 = .ok (.refused error)) :
    x.Refusable ∧
      (w.perform x).2 = { w with journal := releases x.action?.toList ++ w.journal } := by
  cases x with
  | schedule t timing name a =>
    obtain ⟨hrefusable, hw⟩ := schedule_of_refused hx.1 hr
    exact ⟨hrefusable, hw.trans (releaseAll_eq w [a])⟩
  | stopAfter t delay name => exact ⟨trivial, stopAfter_of_refused hx hr⟩
  | delayLeft t name => exact ⟨trivial, delayLeft_of_refused hx hr⟩
  | query t q =>
    cases q with
    | systemId => exact absurd hr (onFound_ne_refused nofun fun _ _ => nofun)
    | _ =>
      obtain ⟨id, e, -, he, -⟩ := onReached_refused hx hr
      exact absurd (Except.ok.inj he) (answer_ne_refused e _)
  | cancel | remove => exact absurd hr (onFound_ne_refused nofun fun _ _ => nofun)
  | isExpired => exact absurd hr (onFound_ne_refused nofun fun _ _ => nofun)
  | stop | attach =>
    obtain ⟨id, e, -, he, -⟩ := onReached_refused hx hr
    cases he
  | idle | inspect | same | forge | panic | run | destroy => cases hr
  | _ => exact hx.elim

end World

end EventSim
