import EventSim.Proofs.Backends.Programs
import EventSim.Proofs.Kernel.Mirrors
import Mathlib.Data.List.Forall2

/-!
# Worlds whose kernels mirror one another

Two worlds mirror one another if their kernels do and if they agree in all the rest.  Their journals
may have begun differently, but from then on they have told the same.

* `Ends.perform`: **a command that attaches nothing ends alike in both**, and they stay mirrors of
  one another.
* `Mirrors.attach`: a backend can be attached in one of them alone.
-/

namespace EventSim

/-- The engines are built-in kernels that mirror one another, the one on the right without calls
that attach schedulers. -/
inductive Engine.Mirrors (known : Nat → Prop) : Engine Action → Engine Action → Prop
  | mk {k l : Kernel Action} :
      k.Mirrors Action.unattached (Action.OfKernels known) l →
      Engine.Mirrors known (.builtIn false k) (.builtIn false l)

namespace World

/-- The worlds agree in everything but the layout of the schedulers and the calls that attach
schedulers; what was told since the journals were `b` and `c` is the same. -/
inductive Mirrors (known : Nat → Prop) (b c : List Entry) : World → World → Prop
  | mk {w : World} {engines : List (Engine Action)} {j : List Entry} :
      List.Forall₂ (Engine.Mirrors known) w.engines engines → w.journal = j ++ b →
      (∀ n, known n → ∃ id, w.named.lookup (.numbered n) = some id) →
      Mirrors known b c w { w with engines := engines, journal := j ++ c }

/-- What the journal tells of actions that are given up, the newest first. -/
def releases (l : List Action) : List Entry := ((l.filterMap Action.tag).map Entry.released).reverse

theorem releaseAll_eq (w : World) (l : List Action) :
    w.releaseAll l = { w with journal := releases l ++ w.journal } := by
  induction l generalizing w with
  | nil => rfl
  | cons a l ih =>
    have hcons : w.releaseAll (a :: l) = (w.release a).releaseAll l := rfl
    rw [hcons, ih, release]
    cases ht : a.tag with
    | none => simp [releases, ht]
    | some tag => simp [releases, ht, log]

theorem perm_releases {l l' : List Action} (h : l'.Perm (l.map Action.unattached)) :
    (releases l').Perm (releases l) := by
  have htags := h.filterMap Action.tag
  rw [List.filterMap_map] at htags
  have hcomp : Action.tag ∘ Action.unattached = Action.tag := funext Action.tag_unattached
  rw [hcomp] at htags
  exact (List.reverse_perm _).trans ((htags.map _).trans (List.reverse_perm _).symm)

/-- The kernel that a scenario hands over has no number. -/
theorem lookup_forgetInjected (w : World) (n : Nat) :
    w.forgetInjected.named.lookup (.numbered n) = w.named.lookup (.numbered n) := by
  show (w.named.filter fun p => p.1 ≠ .injected).lookup _ = _
  induction w.named with
  | nil => rfl
  | cons p l ih =>
    obtain ⟨name, id⟩ := p
    cases name with
    | injected =>
      rw [List.filter_cons_of_neg (by simp), ih]
      rfl
    | numbered i =>
      rw [List.filter_cons_of_pos (by simp), List.lookup_cons, List.lookup_cons, ih]

variable {known : Nat → Prop} {b c : List Entry} {w v : World} {id : KernelId} {t : Target}
  {k l : Kernel Action} {a : Action}

namespace Mirrors

/-- What was told so far does not count any more. -/
theorem rebase (m : Mirrors known b c w v) : Mirrors known w.journal v.journal w v := by
  obtain ⟨he, hj, hn⟩ := m
  exact .mk (j := []) he rfl hn

theorem lookup (m : Mirrors known b c w v) (name : KernelName) : v.lookup name = w.lookup name := by
  cases m
  rfl

theorem handle (m : Mirrors known b c w v) (name : HandleName) : v.handle name = w.handle name := by
  cases m
  rfl

/-- What is behind an identity in the one world mirrors what is behind it in the other. -/
theorem engine? (m : Mirrors known b c w v) (id : KernelId) :
    (w.engine? id = none ∧ v.engine? id = none) ∨
      ∃ k l, w.engine? id = some (.builtIn false k) ∧ v.engine? id = some (.builtIn false l) ∧
        k.Mirrors Action.unattached (Action.OfKernels known) l := by
  obtain ⟨he, -, -⟩ := m
  rename_i engines _
  show (w.engines[id]? = none ∧ engines[id]? = none) ∨
    ∃ k l, w.engines[id]? = some (.builtIn false k) ∧ engines[id]? = some (.builtIn false l) ∧ _
  generalize w.engines = l at he
  induction he generalizing id with
  | nil => exact .inl ⟨rfl, rfl⟩
  | cons hx _ ih =>
    cases id with
    | zero =>
      cases hx with
      | mk hk => exact .inr ⟨_, _, rfl, rfl, hk⟩
    | succ id => exact ih id

theorem reach (m : Mirrors known b c w v) (ht : t.IsKernel) :
    (∃ p, w.reach t = .error p ∧ v.reach t = .error p) ∨
      ∃ id, w.reach t = .ok (id, w) ∧ v.reach t = .ok (id, v) := by
  cases t with
  | facade => exact ht.elim
  | kernel name =>
    simp only [World.reach, m.lookup]
    cases w.lookup name with
    | error p => exact .inl ⟨p, rfl, rfl⟩
    | ok id => exact .inr ⟨id, rfl, rfl⟩

theorem find (m : Mirrors known b c w v) (ht : t.IsKernel) :
    (∃ p, w.find t = .error p ∧ v.find t = .error p) ∨
      ∃ id, w.find t = .ok (some id) ∧ v.find t = .ok (some id) := by
  cases t with
  | facade => exact ht.elim
  | kernel name =>
    simp only [World.find, m.lookup]
    cases w.lookup name with
    | error p => exact .inl ⟨p, rfl, rfl⟩
    | ok id => exact .inr ⟨id, rfl, rfl⟩

/-- The present is the same. -/
theorem nowOf (m : Mirrors known b c w v) (ht : t.IsKernel) :
    (∃ p, w.nowOf t = .error p ∧ v.nowOf t = .error p) ∨
      ∃ now, w.nowOf t = .ok (now, w) ∧ v.nowOf t = .ok (now, v) := by
  unfold World.nowOf
  rcases m.reach ht with ⟨p, hw, hv⟩ | ⟨id, hw, hv⟩
  · rw [hw, hv]
    exact .inl ⟨p, rfl, rfl⟩
  · rw [hw, hv]
    dsimp only
    rcases m.engine? id with ⟨hw, hv⟩ | ⟨k, l, hw, hv, hk⟩
    · rw [hw, hv]
      exact .inr ⟨_, rfl, rfl⟩
    · rw [hw, hv]
      cases hk
      exact .inr ⟨_, rfl, rfl⟩

theorem contextOf (m : Mirrors known b c w v) (ht : t.IsKernel) :
    (∃ p, w.contextOf t = .error p ∧ v.contextOf t = .error p) ∨
      ∃ context, w.contextOf t = .ok (context, w) ∧ v.contextOf t = .ok (context, v) := by
  unfold World.contextOf
  rcases m.reach ht with ⟨p, hw, hv⟩ | ⟨id, hw, hv⟩
  · rw [hw, hv]
    exact .inl ⟨p, rfl, rfl⟩
  · rw [hw, hv]
    dsimp only
    rcases m.engine? id with ⟨hw, hv⟩ | ⟨k, l, hw, hv, hk⟩
    · rw [hw, hv]
      exact .inr ⟨_, rfl, rfl⟩
    · rw [hw, hv]
      cases hk
      exact .inr ⟨_, rfl, rfl⟩

/-! ### Small changes -/

theorem log (m : Mirrors known b c w v) (e : Entry) : Mirrors known b c (w.log e) (v.log e) := by
  obtain ⟨he, hj, hn⟩ := m
  rename_i j
  exact .mk (w := w.log e) (j := e :: j) he (congrArg (e :: ·) hj) hn

/-- One of the worlds alone is told something. -/
theorem log_apart (m : Mirrors known b c w v) (e : Entry) :
    Mirrors known (w.log e).journal v.journal (w.log e) v := by
  obtain ⟨he, -, hn⟩ := m
  exact .mk (w := w.log e) (j := []) he rfl hn

theorem release (m : Mirrors known b c w v) (a : Action) :
    Mirrors known b c (w.release a) (v.release a.unattached) := by
  unfold World.release
  rw [Action.tag_unattached]
  split
  · exact m
  · exact m.log _

theorem releaseAll (m : Mirrors known b c w v) (l : List Action) :
    Mirrors known b c (w.releaseAll l) (v.releaseAll (l.map Action.unattached)) := by
  induction l generalizing w v with
  | nil => exact m
  | cons a l ih => exact ih (m.release a)

/-- The worlds are told of different releases. -/
theorem release_apart (m : Mirrors known b c w v) (l l' : List Action) :
    Mirrors known (releases l ++ w.journal) (releases l' ++ v.journal)
      (w.releaseAll l) (v.releaseAll l') := by
  obtain ⟨he, -, hn⟩ := m
  rw [releaseAll_eq, releaseAll_eq]
  exact .mk (w := { w with journal := releases l ++ w.journal }) (j := []) he rfl hn

theorem save (m : Mirrors known b c w v) (name : HandleName) (h : Handle) :
    Mirrors known b c (w.save name h) (v.save name h) := by
  obtain ⟨he, hj, hn⟩ := m
  exact .mk (w := w.save name h) he hj hn

theorem forgetInjected (m : Mirrors known b c w v) :
    Mirrors known b c w.forgetInjected v.forgetInjected := by
  obtain ⟨he, hj, hn⟩ := m
  refine .mk (w := w.forgetInjected) he hj fun n hk => ?_
  rw [lookup_forgetInjected]
  exact hn n hk

theorem setEngine (m : Mirrors known b c w v) (id : KernelId)
    (hk : k.Mirrors Action.unattached (Action.OfKernels known) l) :
    Mirrors known b c (w.setEngine id (.builtIn false k)) (v.setEngine id (.builtIn false l)) := by
  obtain ⟨he, hj, hn⟩ := m
  rename_i engines j
  refine .mk (w := w.setEngine id (.builtIn false k)) ?_ hj hn
  show List.Forall₂ _ (w.engines.set id _) (engines.set id _)
  generalize w.engines = l at he
  induction he generalizing id with
  | nil => exact .nil
  | cons hx hxs ih =>
    cases id with
    | zero => exact .cons (.mk hk) hxs
    | succ id => exact .cons hx (ih id)

end Mirrors

/-! ### Calls -/

/-- The calls end alike, in worlds that mirror one another. -/
structure Ends {ρ : Type} (known : Nat → Prop) (b c : List Entry) (r r' : ρ × World) : Prop where
  reply : r'.1 = r.1
  world : Mirrors known b c r.2 r'.2

variable {f g : KernelId → Engine Action → World → Except Panic Reply × World}
  {f' g' : KernelId → Engine Action → Except Panic Reply × World}

theorem Ends.onReached (m : Mirrors known b c w v) (ht : t.IsKernel)
    (h : ∀ id k l, k.Mirrors Action.unattached (Action.OfKernels known) l →
      Ends known b c (f id (.builtIn false k) w) (g id (.builtIn false l) v)) :
    Ends known b c (w.onReached t f) (v.onReached t g) := by
  unfold World.onReached
  rcases m.reach ht with ⟨p, hw, hv⟩ | ⟨id, hw, hv⟩
  · rw [hw, hv]
    exact ⟨rfl, m⟩
  · rw [hw, hv]
    dsimp only
    rcases m.engine? id with ⟨hw, hv⟩ | ⟨k, l, hw, hv, hk⟩
    · rw [hw, hv]
      exact ⟨rfl, m⟩
    · rw [hw, hv]
      exact h id k l hk

theorem Ends.onFound (m : Mirrors known b c w v) (ht : t.IsKernel) (without : Reply)
    (h : ∀ id k l, k.Mirrors Action.unattached (Action.OfKernels known) l →
      Ends known b c (f' id (.builtIn false k)) (g' id (.builtIn false l))) :
    Ends known b c (w.onFound t without f') (v.onFound t without g') := by
  unfold World.onFound
  rcases m.find ht with ⟨p, hw, hv⟩ | ⟨id, hw, hv⟩
  · rw [hw, hv]
    exact ⟨rfl, m⟩
  · rw [hw, hv]
    dsimp only
    rcases m.engine? id with ⟨hw, hv⟩ | ⟨k, l, hw, hv, hk⟩
    · rw [hw, hv]
      exact ⟨rfl, m⟩
    · rw [hw, hv]
      exact h id k l hk

theorem Ends.schedule (m : Mirrors known b c w v) (ht : t.IsKernel) (timing : Timing)
    (name : HandleName) (ha : a.OfKernels known) :
    Ends known b c (w.schedule t timing name a) (v.schedule t timing name a.unattached) := by
  have hfacade : ¬ t = .facade := fun h => by
    rw [h] at ht
    exact ht
  unfold World.schedule
  rcases m.reach ht with ⟨p, hw, hv⟩ | ⟨id, hw, hv⟩
  · rw [hw, hv]
    exact ⟨rfl, m.release a⟩
  · rw [hw, hv]
    dsimp only
    rcases m.engine? id with ⟨hw, hv⟩ | ⟨k, l, hw, hv, hk⟩
    · rw [hw, hv]
      exact ⟨rfl, m⟩
    · have hs := hk.schedule timing ha
      rw [hw, hv]
      simp only [hfacade, if_false, Engine.schedule]
      generalize k.schedule timing a = r at hs
      generalize l.schedule timing a.unattached = r' at hs
      cases hs with
      | refused error => exact ⟨rfl, (m.setEngine id hk).releaseAll [a]⟩
      | accepted h hk' => exact ⟨rfl, (m.setEngine id hk').save name h⟩

theorem Ends.scheduleEach (ht : t.IsKernel) (name : Option HandleName)
    (ha : ∀ i, (a.numbered i).OfKernels known) (delays : List Time) (i : Nat)
    (m : Mirrors known b c w v) :
    Ends known b c (w.scheduleEach t name a i delays)
      (v.scheduleEach t name a.unattached i delays) := by
  induction delays generalizing w v i with
  | nil => exact ⟨rfl, m⟩
  | cons delay rest ih =>
    have h := Ends.schedule m ht (.after delay)
      (name.getD (.word ((a.numbered i).tag.getD ""))) (ha i)
    have htag : (a.unattached.numbered i).tag = (a.numbered i).tag := by
      rw [← Action.unattached_numbered, Action.tag_unattached]
    unfold World.scheduleEach
    dsimp only
    rw [htag, ← Action.unattached_numbered]
    generalize w.schedule t _ _ _ = r at h
    generalize v.schedule t _ _ _ = r' at h
    obtain ⟨reply, w'⟩ := r
    obtain ⟨reply', v'⟩ := r'
    obtain ⟨hr, hm⟩ := h
    cases hr
    cases reply with
    | error p => exact ⟨rfl, hm⟩
    | ok reply =>
      have h := ih (i + 1) hm
      dsimp only at h ⊢
      generalize w'.scheduleEach t name a (i + 1) rest = r at h
      generalize v'.scheduleEach t name a.unattached (i + 1) rest = r' at h
      obtain ⟨replies, w''⟩ := r
      obtain ⟨replies', v''⟩ := r'
      obtain ⟨hr, hm'⟩ := h
      cases hr
      cases replies <;> exact ⟨rfl, hm'⟩

theorem Ends.stopAfter (m : Mirrors known b c w v) (ht : t.IsKernel) (delay : Time)
    (name : HandleName) : Ends known b c (w.stopAfter t delay name) (v.stopAfter t delay name) := by
  refine Ends.onReached m ht fun id k l hk => ?_
  have hs := hk.stopAfter delay
  simp only [Engine.stopAfter]
  generalize k.stopAfter delay = r at hs
  generalize l.stopAfter delay = r' at hs
  cases hs with
  | refused error => exact ⟨rfl, m.setEngine id hk⟩
  | accepted h hk' => exact ⟨rfl, (m.setEngine id hk').save name h⟩

theorem Ends.remove (m : Mirrors known b c w v) (ht : t.IsKernel) (h : Handle) :
    Ends known b c (w.remove t h) (v.remove t h) := by
  refine Ends.onFound m ht .done fun id k l hk => ⟨rfl, ?_⟩
  obtain ⟨hr, hk'⟩ := hk.remove h
  simp only [Engine.remove]
  rw [hr, Option.toList_map]
  exact (m.setEngine id hk').releaseAll _

theorem Ends.cancel (m : Mirrors known b c w v) (ht : t.IsKernel) (h : Handle) :
    Ends known b c (w.cancel t h) (v.cancel t h) := by
  refine Ends.onFound m ht .done fun id k l hk => ⟨rfl, ?_⟩
  obtain ⟨hr, hk'⟩ := hk.cancel h
  simp only [Engine.cancel]
  rw [hr, Option.toList_map]
  exact (m.setEngine id hk').releaseAll _

theorem Ends.ask (m : Mirrors known b c w v) (ht : t.IsKernel) (q : Query) :
    Ends known b c (w.ask t q) (v.ask t q) := by
  cases q with
  | systemId =>
    refine Ends.onFound m ht _ fun id k l hk => ⟨?_, m⟩
    cases hk
    rfl
  | _ =>
    refine Ends.onReached m ht fun id k l hk => ⟨?_, m⟩
    cases hk
    rfl

/-- **A command that attaches nothing ends alike.** -/
theorem Ends.perform (m : Mirrors known b c w v) {x : Command}
    (hx : x.All (Command.OfKernels known)) (ha : x.attaches = false) :
    Ends known b c (w.perform x) (v.perform x.unattached) := by
  have hself := hx.self
  cases x with
  | schedule t timing name a =>
    rw [Command.unattached]
    exact .schedule m hself.1 timing name (hx.ofKernels rfl)
  | scheduleEach t delays name a =>
    have h := Ends.scheduleEach hself.1 name (fun i => hx.ofKernels ⟨i, rfl⟩) delays 0 m
    rw [Command.unattached, World.perform, World.perform]
    generalize w.scheduleEach t name a 0 delays = r at h
    generalize v.scheduleEach t name a.unattached 0 delays = r' at h
    obtain ⟨replies, w'⟩ := r
    obtain ⟨replies', v'⟩ := r'
    obtain ⟨hr, hm⟩ := h
    cases hr
    cases replies <;> exact ⟨rfl, hm⟩
  | chain t tag delay length name =>
    cases length with
    | zero => exact ⟨rfl, m⟩
    | succ left =>
      have h := Ends.schedule m hself (.after delay) name
        (hx.ofKernels (rfl : _ = World.link t tag delay left name))
      rwa [unattached_link] at h
  | stopAfter t delay name => exact .stopAfter m hself delay name
  | cancel t name =>
    simp only [Command.unattached, World.perform, m.handle]
    exact .cancel m hself _
  | remove t name =>
    simp only [Command.unattached, World.perform, m.handle]
    exact .remove m hself _
  | isExpired t name =>
    simp only [Command.unattached, World.perform, m.handle]
    refine Ends.onFound m hself _ fun id k l hk => ⟨?_, m⟩
    simp only [Engine.isExpired, hk.isExpired]
  | delayLeft t name =>
    simp only [Command.unattached, World.perform, m.handle]
    refine Ends.onReached m hself fun id k l hk => ?_
    simp only [Engine.delayLeft, hk.delayLeft]
    split <;> exact ⟨rfl, m⟩
  | stop t =>
    exact Ends.onReached m hself fun id k l hk => ⟨rfl, m.setEngine id hk.stop⟩
  | attach => cases ha
  | query t q => exact .ask m hself q
  | inspect name =>
    simp only [Command.unattached, World.perform, m.handle]
    exact ⟨rfl, m⟩
  | same x y =>
    simp only [Command.unattached, World.perform, m.handle]
    exact ⟨rfl, m⟩
  | forge source time uid context teardown name =>
    simp only [Command.unattached, World.perform, m.handle]
    exact ⟨rfl, m.save name _⟩
  | idle | panic | run | destroy => exact ⟨rfl, m⟩
  | _ => exact hself.elim

/-- **A scheduler may be attached in one of the worlds alone.** -/
theorem Mirrors.attach (m : Mirrors known b c w v) {backend : Backend}
    (hx : Command.OfKernels known (.attach t backend)) :
    ∃ w', w.perform (.attach t backend) = (.ok .done, w') ∧ Mirrors known b c w' v := by
  obtain ⟨⟨n, hn, rfl⟩, hb⟩ := hx
  obtain ⟨id, hid⟩ : ∃ id, w.named.lookup (.numbered n) = some id := by
    obtain ⟨-, -, hknown⟩ := m
    exact hknown n hn
  have hreach : w.reach (.kernel (.numbered n)) = .ok (id, w) := by
    simp only [World.reach, World.lookup, hid]
  rw [World.perform, World.onReached, hreach]
  dsimp only
  rcases m.engine? id with ⟨hw, -⟩ | ⟨k, l, hw, hv, hk⟩
  · rw [hw]
    exact ⟨w, rfl, m⟩
  · have h := m.setEngine id (hk.attach hb)
    rw [setEngine_of_engine? hv] at h
    refine ⟨_, ?_, h⟩
    rw [hw]
    simp only [World.attach, hw]
    rfl

end World

end EventSim
