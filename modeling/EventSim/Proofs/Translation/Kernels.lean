import EventSim.Proofs.Kernel.Mirrors
import EventSim.Proofs.Scheduler.Trims
import EventSim.Proofs.Translation.Programs

/-!
# Kernels that carry out a program in another manner

A kernel renders another one in a manner if it agrees with it in everything that can be asked, holds
its events with their actions said in that manner, and misses nothing but cancelled events.  So a
cancelled event is a matter of the one kernel alone: whether it is still stored in the other, too,
cannot be found out.

* One lemma for each call: both kernels answer the same and the one renders the other afterwards.
  `Renders.cancel` and `Renders.cancel_remove` are the two ways in which an event is given up.
* `Renders.dequeue`: **the same event runs next**, unless the kernel skips an event that the other
  one does not have.
-/

namespace EventSim

namespace Kernel

variable {μ : Manner} {T : Target → Prop} {k k' l : Kernel Action} {c : List Nat} {h : Handle}

/-- The kernel in a manner, the events in `s` and the numbers of those that will be skipped in
`c`. -/
def translate (μ : Manner) (k : Kernel Action) (s : Scheduler (Payload Action)) (c : List Nat) :
    Kernel Action where
  id := k.id
  systemId := k.systemId
  now := k.now
  context := k.context
  stopping := !μ.unstopped && k.stopping
  scheduler := s
  teardowns := k.teardowns.map (TeardownEvent.map (Action.translate μ))
  pending := k.pending
  cancelled := c
  nextUid := k.nextUid
  executed := k.executed

/-- The event is still stored if the cancelled events are those with a number in `c`. -/
def keeps (k : Kernel Action) (c : List Nat) (e : Event (Payload Action)) : Bool :=
  decide (e.key.uid ∈ k.cancelled → e.key.uid ∈ c)

/-- The kernel `l` is `k` in a manner, without some of the events that were cancelled in `k`. -/
inductive Renders (μ : Manner) (T : Target → Prop) : Kernel Action → Kernel Action → Prop
  | mk {k : Kernel Action} {s : Scheduler (Payload Action)} {c : List Nat} :
      (∀ a, .act a ∈ k.load → a.Directed T) → c.Sublist k.cancelled →
      k.scheduler.Trims (Payload.translate μ) (k.keeps c) s →
      Renders μ T k (k.translate μ s c)

theorem renders_fresh (id : KernelId) (systemId : UInt32) :
    Renders μ T (fresh id systemId) (fresh id systemId) := by
  have hs : Scheduler.Trims (Payload.translate μ) ((fresh id systemId).keeps []) (.empty .map)
      (.empty .map) := .empty rfl rfl
  have hl : (fresh id systemId : Kernel Action) =
      (fresh id systemId).translate μ (.empty .map) [] := by
    simp [fresh, translate]
  have hk : Renders μ T (fresh id systemId) ((fresh id systemId).translate μ (.empty .map) []) :=
    .mk (fun a ha => by cases ha) (.refl _) hs
  rwa [← hl] at hk

/-- The kernel with all its events said in the manner. -/
theorem renders_translate (s : k.Sound) (hq : ∀ a, .act a ∈ k.load → a.Directed T) :
    Renders μ T k (k.translate μ (k.scheduler.mapPayloads (Payload.translate μ)) k.cancelled) :=
  .mk hq (.refl _) (Scheduler.trims_mapPayloads s.ordered s.distinct_keys fun _ _ =>
    decide_eq_true fun h => h)

/-! ### Which events are still stored -/

theorem keeps_of_not_cancelled {e : Event (Payload Action)} (h : e.key.uid ∉ k.cancelled) :
    k.keeps c e = true := decide_eq_true fun hc => absurd hc h

theorem keeps_of_mem {e : Event (Payload Action)} (h : e.key.uid ∈ c) : k.keeps c e = true :=
  decide_eq_true fun _ => h

theorem keeps_eq_false {e : Event (Payload Action)} (h : e.key.uid ∈ k.cancelled)
    (hc : e.key.uid ∉ c) : k.keeps c e = false := decide_eq_false fun hi => hc (hi h)

/-- For the other events it does not matter that a number is cancelled no more. -/
theorem keeps_erase {e : Event (Payload Action)} {uid : Nat} (h : e.key.uid ≠ uid)
    (hk : k'.cancelled = k.cancelled.erase uid) : k'.keeps (c.erase uid) e = k.keeps c e := by
  simp only [keeps, hk, List.mem_erase_of_ne h]

/-- The numbers of different events are different. -/
theorem Sound.uid_ne (s : k.Sound) {e x : Event (Payload Action)}
    {rest : List (Event (Payload Action))} (hp : k.scheduler.toList.Perm (e :: rest))
    (hx : x ∈ rest) : x.key.uid ≠ e.key.uid := by
  have huids : k.storedUids.Perm (e.key.uid :: rest.map fun e => e.key.uid) :=
    hp.map fun e : Event (Payload Action) => e.key.uid
  have hnodup := List.nodup_cons.1 (huids.nodup_iff.1 s.nodup_stored)
  intro heq
  exact hnodup.1 (heq ▸ List.mem_map.2 ⟨x, hx, rfl⟩)

/-- The books of the other kernel agree, too. -/
theorem Renders.sound (m : Renders μ T k l) (s : k.Sound) : l.Sound := by
  obtain ⟨hq, hc, hs⟩ := m
  rename_i t c
  have huids : (k.translate μ t c).storedUids.Perm
      ((k.scheduler.toList.filter (k.keeps c)).map fun e => e.key.uid) := by
    have hperm := hs.perm.map fun e : Event (Payload Action) => e.key.uid
    rwa [List.map_map] at hperm
  have hsub : ((k.scheduler.toList.filter (k.keeps c)).map fun e => e.key.uid).Sublist
      k.storedUids := List.filter_sublist.map _
  have hteardowns : (k.translate μ t c).teardownUids = k.teardownUids := by
    simp only [teardownUids, translate, List.map_map]
    rfl
  have hall := huids.append_right k.teardownUids
  refine ⟨?_, hs.ordered', s.nextUid_pos⟩
  constructor
  case stored =>
    have hsets : (k.pending ++ c).Nodup := s.nodup_sets.sublist (hc.append_left _)
    refine (List.perm_ext_iff_of_nodup ?_ hsets).2 fun uid => ?_
    · exact huids.nodup_iff.2 (s.nodup_stored.sublist hsub)
    · rw [huids.mem_iff, List.mem_append, List.mem_map]
      constructor
      · rintro ⟨e, he, rfl⟩
        obtain ⟨he, hk⟩ := List.mem_filter.1 he
        exact (s.mem_sets.1 (mem_storedUids he)).imp_right (of_decide_eq_true hk)
      · intro hu
        obtain ⟨e, he, rfl⟩ := List.mem_map.1 (s.mem_sets.2 (hu.imp_right fun h => hc.subset h))
        refine ⟨e, List.mem_filter.2 ⟨he, decide_eq_true fun hcanc => ?_⟩, rfl⟩
        exact hu.resolve_left fun hp => s.not_cancelled hp hcanc
  case distinct =>
    rw [hteardowns]
    exact hall.nodup_iff.2 (s.distinct.sublist (hsub.append_right _))
  case minted =>
    intro uid hu
    rw [hteardowns] at hu
    exact s.minted uid ((hsub.append_right _).subset (hall.mem_iff.1 hu))
  case due =>
    intro e he
    obtain ⟨x, hx, -, rfl⟩ := hs.mem.1 he
    exact s.due x hx
  case begun => exact s.begun

/-! ### Questions -/

section Questions

variable (m : Renders μ T k l)

include m

theorem Renders.id_eq : l.id = k.id := by
  cases m
  rfl

theorem Renders.systemId_eq : l.systemId = k.systemId := by
  cases m
  rfl

theorem Renders.now_eq : l.now = k.now := by
  cases m
  rfl

theorem Renders.context_eq : l.context = k.context := by
  cases m
  rfl

theorem Renders.executed_eq : l.executed = k.executed := by
  cases m
  rfl

theorem Renders.isFinished_eq : l.isFinished = k.isFinished := by
  cases m
  rfl

theorem Renders.issued : l.Issued h ↔ k.Issued h := by
  cases m
  rfl

theorem Renders.isExpired_eq (h : Handle) : l.isExpired h = k.isExpired h := by
  unfold Kernel.isExpired
  by_cases hi : k.Issued h
  · rw [if_pos hi, if_pos (m.issued.2 hi)]
    cases m
    split
    · dsimp only [translate]
      rw [List.any_map]
      rfl
    · rfl
  · rw [if_neg hi, if_neg fun hl => hi (m.issued.1 hl)]

theorem Renders.delayLeft_eq (h : Handle) : l.delayLeft h = k.delayLeft h := by
  unfold Kernel.delayLeft
  rw [m.isExpired_eq]
  cases m
  rfl

end Questions

/-! ### Scheduling -/

/-- Both calls are refused for the same reason, or both are accepted and answer the same handle. -/
inductive RendersIssue (μ : Manner) (T : Target → Prop) :
    Except SimError (Handle × Kernel Action) → Except SimError (Handle × Kernel Action) → Prop
  | refused (error : SimError) : RendersIssue μ T (.error error) (.error error)
  | accepted {k l : Kernel Action} (h : Handle) :
      Renders μ T k l → RendersIssue μ T (.ok (h, k)) (.ok (h, l))

theorem Renders.store (m : Renders μ T k l) (s : k.Sound) {time : Time} (ht : k.now ≤ time)
    (context : Context) {p : Payload Action} (hp : ∀ a, p = .act a → a.Directed T) :
    RendersIssue μ T (.ok (k.store time context p))
      (.ok (l.store time context (p.translate μ))) := by
  obtain ⟨hq, hc, hs⟩ := m
  rename_i t c
  have hfresh := s.nextUid_fresh
  rw [List.mem_append, not_or] at hfresh
  have hkey : ∀ x ∈ k.scheduler.toList, ¬ (⟨time, k.nextUid, context⟩ : EventKey).Same x.key := by
    intro x hx hsame
    refine hfresh.1 ?_
    rw [show k.nextUid = x.key.uid from hsame.2]
    exact mem_storedUids hx
  have hkeep : k.keeps c ⟨⟨time, k.nextUid, context⟩, p⟩ = true :=
    keeps_of_not_cancelled fun hn => hfresh.1 (s.mem_sets.2 (.inr hn))
  refine .accepted _ (.mk (k := (k.store time context p).2) ?_ hc (hs.insert hkey hkeep))
  refine Does.holds (.issued (.stored k time context p ht)) (fun a ha => ?_) hq
  exact hp a (List.mem_singleton.1 ha).symm

theorem Renders.insert (m : Renders μ T k l) (s : k.Sound) (context : Context) (delay : Time)
    {p : Payload Action} (hp : ∀ a, p = .act a → a.Directed T) :
    RendersIssue μ T (k.insert context delay p) (l.insert context delay (p.translate μ)) := by
  unfold Kernel.insert
  rw [m.now_eq]
  split
  · exact .refused _
  · rename_i hn
    split
    · exact .refused _
    · rename_i time ht
      exact m.store s (le_of_checkedAdd hn ht) context hp

theorem Renders.register (m : Renders μ T k l) {a : Action} (ha : a.Directed T) :
    RendersIssue μ T (.ok (k.register a)) (.ok (l.register (a.translate μ))) := by
  obtain ⟨hq, hc, hs⟩ := m
  rename_i s c
  have hl : (k.translate μ s c).register (a.translate μ) =
      ((k.register a).1, (k.register a).2.translate μ s c) := by
    simp [Kernel.register, translate, TeardownEvent.map]
  rw [hl]
  refine .accepted _ (.mk ?_ hc hs)
  refine Does.holds (.issued (.registered k a)) (fun b hb => ?_) hq
  cases List.mem_singleton.1 hb
  exact ha

/-- **Actions are accepted alike.** -/
theorem Renders.schedule (m : Renders μ T k l) (s : k.Sound) (timing : Timing) {a : Action}
    (ha : a.Directed T) :
    RendersIssue μ T (k.schedule timing a) (l.schedule timing (a.translate μ)) := by
  have hact : ∀ b, Payload.act a = .act b → b.Directed T := fun b hb => by
    cases hb
    exact ha
  cases timing with
  | after delay =>
    rw [Kernel.schedule, Kernel.schedule, m.context_eq]
    exact m.insert s k.context delay hact
  | immediately =>
    rw [Kernel.schedule, Kernel.schedule, m.now_eq, m.context_eq]
    exact m.store s (Time.le_refl _) k.context hact
  | under context delay => exact m.insert s context delay hact
  | atTeardown => exact m.register ha

theorem Renders.stopAfter (m : Renders μ T k l) (s : k.Sound) (hμ : μ.unstopped = false)
    (delay : Time) : RendersIssue μ T (k.stopAfter delay) (l.stopAfter delay) := by
  have hp : (Payload.halt : Payload Action).translate μ = .halt := by simp [Payload.translate, hμ]
  have hi := m.insert s k.context delay (p := .halt) fun a ha => by cases ha
  rw [Kernel.stopAfter, Kernel.stopAfter, m.context_eq]
  rwa [hp] at hi

/-- An event that does nothing takes the place of one that stops the run loop. -/
theorem Renders.stopAfter_schedule (m : Renders μ T k l) (s : k.Sound) (hμ : μ.unstopped = true)
    (delay : Time) :
    RendersIssue μ T (k.stopAfter delay) (l.schedule (.after delay) (.silent [])) := by
  have hp : (Payload.halt : Payload Action).translate μ = .act (.silent []) := by
    simp [Payload.translate, hμ]
  have hi := m.insert s k.context delay (p := .halt) fun a ha => by cases ha
  rw [Kernel.stopAfter, Kernel.schedule, m.context_eq]
  rwa [hp] at hi

/-! ### Handles -/

theorem Renders.takeTeardown (m : Renders μ T k l) (uid : Nat) :
    Renders μ T (k.takeTeardown uid).2 (l.takeTeardown uid).2 := by
  obtain ⟨hq, hc, hs⟩ := m
  rename_i s c
  have herase : (k.teardowns.map (TeardownEvent.map (Action.translate μ))).eraseP
      (fun e => e.uid == uid) =
      (k.teardowns.eraseP fun e => e.uid == uid).map (TeardownEvent.map (Action.translate μ)) :=
    List.eraseP_map ..
  have hl : ((k.translate μ s c).takeTeardown uid).2 = (k.takeTeardown uid).2.translate μ s c := by
    simp only [Kernel.takeTeardown, translate, herase]
  rw [hl]
  refine .mk (fun a ha => hq a ?_) hc hs
  exact (load_takeTeardown k uid).subset ha

/-- The event of a known handle that was not cancelled, or not in one of the kernels alone. -/
theorem Sound.exists_kept (s : k.Sound) (hk : k.Knows h) (ht : h.kind = .timed)
    (hc : c.Sublist k.cancelled) (hu : h.uid ∈ k.pending ∨ h.uid ∈ c) :
    ∃ e rest, k.scheduler.remove h.key = (some e, rest) ∧ e.key.uid = h.uid ∧ e.key.Same h.key ∧
      k.scheduler.toList.Perm (e :: rest.toList) ∧ k.keeps c e = true := by
  obtain ⟨e, rest, hr, he, hp⟩ := s.exists_remove hk ht (hu.imp_right fun hu => hc.subset hu)
  refine ⟨e, rest, hr, he, Scheduler.remove_some (congrArg Prod.fst hr), hp, ?_⟩
  rcases hu with hu | hu
  · exact keeps_of_not_cancelled (he ▸ s.not_cancelled hu)
  · exact keeps_of_mem (he ▸ hu)

/-- **The same event is removed**, if both kernels have it. -/
theorem Renders.remove (m : Renders μ T k l) (s : k.Sound) (hk : k.Issued h → k.Knows h) :
    Renders μ T (k.remove h).2 (l.remove h).2 := by
  have hhold := Does.holds (.removed k h) (q := Action.Directed T) fun a ha => by cases ha
  unfold Kernel.remove at hhold ⊢
  by_cases hi : k.Issued h
  · rw [if_pos hi] at hhold ⊢
    rw [if_pos (m.issued.2 hi)]
    cases ht : h.kind with
    | teardown => exact m.takeTeardown h.uid
    | timed =>
      obtain ⟨hq, hc, hs⟩ := m
      rename_i t c
      rw [ht] at hhold
      dsimp only [translate] at hhold ⊢
      by_cases hu : h.uid ∈ k.pending ∨ h.uid ∈ c
      · have hu' : h.uid ∈ k.pending ∨ h.uid ∈ k.cancelled := hu.imp_right fun hu => hc.subset hu
        obtain ⟨e, rest, hr, he, hsame, hp, hkeep⟩ := s.exists_kept (hk hi) ht hc hu
        have he' : e ∈ k.scheduler.toList := hp.mem_iff.2 List.mem_cons_self
        have ho := s.ordered.remove h.key
        rw [hr] at ho
        simp only [hu, hu', if_true, hr] at hhold ⊢
        refine .mk (hhold hq) (hc.erase _) ?_
        refine (hs.drop ho (hs.ordered'.remove h.key) hkeep hp (hs.find he' hkeep hsame).2).congr ?_
        exact fun x hx => keeps_erase (he ▸ s.uid_ne hp hx) rfl
      · have huc := (not_or.1 hu).2
        by_cases hu' : h.uid ∈ k.pending ∨ h.uid ∈ k.cancelled
        · -- the event was cancelled and is stored in the one kernel alone
          obtain ⟨e, rest, hr, he, hp⟩ := s.exists_remove (hk hi) ht hu'
          have hcanc : h.uid ∈ k.cancelled := hu'.resolve_left (not_or.1 hu).1
          have ho := s.ordered.remove h.key
          rw [hr] at ho
          simp only [hu, hu', if_true, if_false, hr] at hhold ⊢
          refine .mk (hhold hq) (hc.erase _) ?_
          refine (hs.drop_apart ho (keeps_eq_false (he ▸ hcanc) (he ▸ huc)) hp).congr ?_
          exact fun x hx => keeps_erase (he ▸ s.uid_ne hp hx) rfl
        · simp only [hu, hu', if_false] at hhold ⊢
          refine .mk (hhold hq) (hc.erase _) (hs.congr fun x hx => ?_)
          refine keeps_erase (fun heq => hu' (s.mem_sets.1 ?_)) rfl
          exact heq ▸ mem_storedUids hx
  · rw [if_neg hi, if_neg fun hl => hi (m.issued.1 hl)]
    exact m

/-- **The same event is cancelled.** -/
theorem Renders.cancel (m : Renders μ T k l) (s : k.Sound) :
    Renders μ T (k.cancel h).2 (l.cancel h).2 := by
  unfold Kernel.cancel
  by_cases hi : k.Issued h
  · rw [if_pos hi, if_pos (m.issued.2 hi)]
    cases ht : h.kind with
    | teardown => exact m.takeTeardown h.uid
    | timed =>
      obtain ⟨hq, hc, hs⟩ := m
      rename_i t c
      dsimp only [translate]
      by_cases hu : h.uid ∈ k.pending
      · have hn := s.not_cancelled hu
        simp only [hu, if_true, List.insert_of_not_mem hn,
          List.insert_of_not_mem fun hm => hn (hc.subset hm)]
        refine .mk hq (hc.cons_cons _) (hs.congr fun x hx => decide_eq_decide.2 ?_)
        rw [List.mem_cons, List.mem_cons]
        by_cases hx : x.key.uid = h.uid
        · simp [hx, hn]
        · simp [hx]
      · simp only [hu, if_false]
        exact .mk hq hc hs
  · rw [if_neg hi, if_neg fun hl => hi (m.issued.1 hl)]
    exact m

/-- **An event may be removed where it is cancelled.** -/
theorem Renders.cancel_remove (m : Renders μ T k l) (s : k.Sound)
    (hk : k.Issued h → k.Knows h) : Renders μ T (k.cancel h).2 (l.remove h).2 := by
  unfold Kernel.cancel Kernel.remove
  by_cases hi : k.Issued h
  · rw [if_pos hi, if_pos (m.issued.2 hi)]
    cases ht : h.kind with
    | teardown => exact m.takeTeardown h.uid
    | timed =>
      obtain ⟨hq, hc, hs⟩ := m
      rename_i t c
      dsimp only [translate]
      have hnodup : k.cancelled.Nodup := (List.nodup_append.1 s.nodup_sets).2.1
      have hgone : h.uid ∉ c.erase h.uid := (hnodup.sublist hc).not_mem_erase
      have herased : (c.erase h.uid).Sublist k.cancelled := List.erase_sublist.trans hc
      by_cases hu : h.uid ∈ k.pending ∨ h.uid ∈ c
      · obtain ⟨e, rest, hr, he, hsame, hp, hkeep⟩ := s.exists_kept (hk hi) ht hc hu
        have he' : e ∈ k.scheduler.toList := hp.mem_iff.2 List.mem_cons_self
        have hfind := (hs.find he' hkeep hsame).2
        have hne : ∀ x : Event (Payload Action), x ∈ k.scheduler.toList → ¬ x.key.Same e.key →
            x.key.uid ≠ h.uid := fun x hx hx' heq => by
          rcases List.mem_cons.1 (hp.mem_iff.1 hx) with rfl | hx
          · exact hx' ⟨rfl, rfl⟩
          · exact s.uid_ne hp hx (heq.trans he.symm)
        simp only [hu, if_true]
        by_cases hu' : h.uid ∈ k.pending
        · have hn := s.not_cancelled hu'
          simp only [hu', if_true, List.insert_of_not_mem hn]
          refine .mk hq (herased.cons _) ?_
          refine hs.discard (hs.ordered'.remove h.key) he' hkeep ?_ (fun x hx hx' => ?_) hfind
          · exact keeps_eq_false (he ▸ List.mem_cons_self) (he ▸ hgone)
          · refine decide_eq_decide.2 ?_
            simp [List.mem_erase_of_ne (hne x hx hx'), hne x hx hx']
        · simp only [hu', if_false]
          have hcanc := hc.subset (hu.resolve_left hu')
          have hpend : k.pending.erase h.uid = k.pending := List.erase_of_not_mem hu'
          rw [hpend]
          refine .mk hq herased ?_
          refine hs.discard (hs.ordered'.remove h.key) he' hkeep ?_ (fun x hx hx' => ?_) hfind
          · exact keeps_eq_false (he ▸ hcanc) (he ▸ hgone)
          · simp only [keeps, List.mem_erase_of_ne (hne x hx hx')]
      · obtain ⟨hu', huc⟩ := not_or.1 hu
        simp only [hu', huc, or_self, if_false, List.erase_of_not_mem hu',
          List.erase_of_not_mem huc]
        exact .mk hq hc hs
  · rw [if_neg hi, if_neg fun hl => hi (m.issued.1 hl)]
    exact m

/-! ### Backends -/

theorem Renders.attach (m : Renders μ T k l) {b : Backend} (hb : b.isBuiltIn = true) :
    Renders μ T (k.attach b) (l.attach b) := by
  obtain ⟨hq, hc, hs⟩ := m
  refine .mk (k := k.attach b) ?_ hc (hs.migrate hb)
  exact Does.holds (.attached k b) (fun a ha => by cases ha) hq

/-! ### The run loop -/

theorem Renders.stop (m : Renders μ T k l) (hμ : μ.unstopped = false) :
    Renders μ T k.stop l.stop := by
  obtain ⟨hq, hc, hs⟩ := m
  rename_i s c
  have hl : (k.translate μ s c).stop = k.stop.translate μ s c := by
    simp [Kernel.stop, translate, hμ]
  rw [hl]
  exact .mk hq hc hs

/-- In a manner without requests to stop, none is heard. -/
theorem Renders.stop_apart (m : Renders μ T k l) (hμ : μ.unstopped = true) :
    Renders μ T k.stop l := by
  obtain ⟨hq, hc, hs⟩ := m
  rename_i s c
  have hl : k.translate μ s c = k.stop.translate μ s c := by
    simp [Kernel.stop, translate, hμ]
  rw [hl]
  exact .mk hq hc hs

theorem Renders.beginRun (m : Renders μ T k l) : Renders μ T k.beginRun l.beginRun := by
  obtain ⟨hq, hc, hs⟩ := m
  rename_i s c
  have hl : (k.translate μ s c).beginRun = k.beginRun.translate μ s c := by
    simp [Kernel.beginRun, translate]
  rw [hl]
  exact .mk hq hc hs

/-- In a manner without requests to stop, there is none to be forgotten. -/
theorem Renders.beginRun_apart (m : Renders μ T k l) (hμ : μ.unstopped = true) :
    Renders μ T k.beginRun l := by
  obtain ⟨hq, hc, hs⟩ := m
  rename_i s c
  have hl : k.translate μ s c = k.beginRun.translate μ s c := by
    simp [Kernel.beginRun, translate, hμ]
  rw [hl]
  exact .mk hq hc hs

/-- In a manner without requests to stop, a run loop begins with nothing. -/
theorem Renders.beginRun_eq (m : Renders μ T k l) (hμ : μ.unstopped = true) : l.beginRun = l := by
  cases m
  simp [Kernel.beginRun, translate, hμ]

theorem Renders.endRun (m : Renders μ T k l) : Renders μ T k.endRun l.endRun := by
  obtain ⟨hq, hc, hs⟩ := m
  exact .mk (k := k.endRun) hq hc hs

/-- The run loops have the same thing to do next. -/
inductive RendersNext (μ : Manner) (T : Target → Prop) : Dequeued Action → Dequeued Action → Prop
  | idle : RendersNext μ T .idle .idle
  | skipped {k l : Kernel Action} (p : Payload Action) :
      Renders μ T k l → RendersNext μ T (.skipped p k) (.skipped (p.translate μ) l)
  | started {k l : Kernel Action} {e : Event (Payload Action)} :
      (∀ a, e.payload = .act a → a.Directed T) → Renders μ T k l →
      RendersNext μ T (.started e k) (.started (e.map (Payload.translate μ)) l)

theorem Renders.stopping_eq (m : Renders μ T k l) (hμ : μ.unstopped = true → k.stopping = false) :
    l.stopping = k.stopping := by
  cases m
  dsimp only [translate]
  cases hu : μ.unstopped with
  | true =>
    rw [hμ hu]
    rfl
  | false => rfl

/-- **The same event runs next**, unless an event is skipped that the other kernel does not have. -/
theorem Renders.dequeue (m : Renders μ T k l) (s : k.Sound)
    (hμ : μ.unstopped = true → k.stopping = false) :
    (∃ p k', k.dequeue = .skipped p k' ∧ Renders μ T k' l) ∨
      RendersNext μ T k.dequeue l.dequeue := by
  have hstop := m.stopping_eq hμ
  cases hst : k.stopping with
  | true =>
    right
    rw [dequeue_of_stopping hst, dequeue_of_stopping (hstop.trans hst)]
    exact .idle
  | false =>
    have hst' : l.stopping = false := hstop.trans hst
    obtain ⟨hq, hc, hs⟩ := m
    rename_i t c
    cases hpop : k.scheduler.pop with
    | none =>
      right
      have hpop' : (k.translate μ t c).scheduler.pop = none := hs.pop_none hpop
      rw [dequeue_of_pop_none hpop, dequeue_of_pop_none hpop']
      exact .idle
    | some r =>
      obtain ⟨e, rest⟩ := r
      have hp := Scheduler.perm_pop hpop
      have hin : e ∈ k.scheduler.toList := hp.mem_iff.2 List.mem_cons_self
      by_cases hcanc : e.key.uid ∈ k.cancelled
      · have hd := dequeue_of_pop_cancelled hst hpop hcanc
        have hq' := Does.holds (.skipped hd) (fun a ha => by cases ha) hq
        have hkeeps (x : Event (Payload Action)) (hx : x ∈ rest.toList) :
            keeps { k with scheduler := rest, cancelled := k.cancelled.erase e.key.uid }
              (c.erase e.key.uid) x = k.keeps c x := keeps_erase (s.uid_ne hp hx) rfl
        by_cases hec : e.key.uid ∈ c
        · right
          obtain ⟨t', hpop', ht'⟩ := hs.pop hpop (keeps_of_mem hec)
          rw [hd, dequeue_of_pop_cancelled hst' hpop' hec]
          exact .skipped _ (.mk hq' (hc.erase _) (ht'.congr hkeeps))
        · -- the event is stored in the one kernel alone
          left
          have hsub := hc.erase e.key.uid
          rw [List.erase_of_not_mem hec] at hsub hkeeps
          refine ⟨_, _, hd, .mk hq' hsub ?_⟩
          exact (hs.pop_apart hpop (keeps_eq_false hcanc hec)).congr hkeeps
      · right
        obtain ⟨t', hpop', ht'⟩ := hs.pop hpop (keeps_of_not_cancelled hcanc)
        have hd := dequeue_of_pop hst hpop hcanc (s.due e hin)
        have hq' := Does.holds (.started hd) (fun a ha => by cases ha) hq
        have hact (a : Action) (ha : e.payload = .act a) : a.Directed T :=
          hq a (List.mem_append_left _ (List.mem_map.2 ⟨e, hin, ha⟩))
        have hec : e.key.uid ∉ c := fun hm => hcanc (hc.subset hm)
        have hd' := dequeue_of_pop (k := k.translate μ t c) hst' hpop' hec (s.due e hin)
        rw [hd, hd']
        exact .started hact (.mk hq' hc ht')

/-! ### Destruction -/

theorem Renders.popTeardown_none (m : Renders μ T k l) (h : k.popTeardown = none) :
    l.popTeardown = none := by
  obtain ⟨hq, hc, hs⟩ := m
  rw [popTeardown_eq_none] at *
  dsimp only [translate]
  rw [h]
  rfl

/-- The same teardown event is next. -/
theorem Renders.popTeardown (m : Renders μ T k l) {e : TeardownEvent Action}
    (h : k.popTeardown = some (e, k')) :
    e.action.Directed T ∧ ∃ l', l.popTeardown = some (e.map (Action.translate μ), l') ∧
      Renders μ T k' l' := by
  obtain ⟨hq, hc, hs⟩ := m
  have hq' := Does.holds (.unwound h) (fun a ha => by cases ha) hq
  obtain ⟨rest, ht, rfl⟩ := popTeardown_eq_some.1 h
  have hmem : e ∈ k.teardowns := by simp [ht]
  refine ⟨hq _ (List.mem_append_right _ (List.mem_map.2 ⟨e, hmem, rfl⟩)), _,
    popTeardown_eq_some.2 ⟨rest.map (TeardownEvent.map (Action.translate μ)), ?_, rfl⟩,
    .mk (k := { k with teardowns := rest }) hq' hc hs⟩
  dsimp only [translate]
  rw [ht, List.map_cons]

theorem Renders.sweep (m : Renders μ T k l) : Renders μ T k.sweep.2 l.sweep.2 := by
  obtain ⟨hq, hc, hs⟩ := m
  have he : Scheduler.Trims (Payload.translate μ) (k.sweep.2.keeps []) (.empty .map)
      (.empty .map) := .empty rfl rfl
  refine .mk (k := k.sweep.2) (fun a ha => hq a ?_) (.refl _) he
  exact List.mem_append_right _ ha

end Kernel

end EventSim
