import EventSim.Proofs.Kernel.Agenda
import EventSim.Proofs.World.Reserves
import Mathlib.Algebra.BigOperators.Group.Finset.Piecewise

/-!
# What the live events have in reserve

In a world in which handles are only passed on, an event that was cancelled will be dequeued, but
its body will never run.  So the timed scheduling calls of the events on the agendas and of the
teardown events are all that can still be made.

A note books what an accepted call adds to this smaller reserve, and uses what a started event takes
out of it: `Kernel.Undergoes.liveReserve_le` says that **a kernel uses nothing but its reserve and
what is booked**, and `World.Lives.liveReserve_le` the same of all kernels together.
-/

namespace EventSim

namespace Note

/-- What a note adds to the reserve: a timed event that was stored, and the calls in its body. -/
def booked : Note Action → Nat
  | .issued h payload => (if h.kind = .timed then 1 else 0) + payload.timedCalls
  | _ => 0

/-- What a note takes out of the reserve: an event of a kernel that counts, and the calls in the
body that starts. -/
def used (counts : Bool) : Note Action → Nat
  | .started e => counts.toNat + e.payload.timedCalls
  | .skipped _ => counts.toNat
  | .unwound e => e.action.timedCalls
  | _ => 0

end Note

namespace Kernel

variable {k k' : Kernel Action} {n : Option (Note Action)} {counts : Bool}

/-- The timed scheduling calls that occur in the bodies of the events on the agenda and of the
teardown events. -/
def liveCalls (k : Kernel Action) : Nat :=
  total (fun e => e.payload.timedCalls) k.agenda + total (fun e => e.action.timedCalls) k.teardowns

/-- The stored events, if they count, and the timed scheduling calls of what will run. -/
def liveReserve (counts : Bool) (k : Kernel Action) : Nat := counts.toNat * k.size + k.liveCalls

theorem liveReserve_fresh (counts : Bool) (id : KernelId) (systemId : UInt32) :
    (fresh id systemId).liveReserve counts = 0 := by
  cases counts <;> rfl

/-! ### What an effect does to the reserve -/

/-- What is stored adds itself and the calls in its body. -/
theorem Sound.liveReserve_store (s : k.Sound) {time : Time} (ht : k.now ≤ time)
    (context : Context) (payload : Payload Action) :
    (k.store time context payload).2.liveReserve counts =
      k.liveReserve counts + (counts.toNat + payload.timedCalls) := by
  have hsize : (k.store time context payload).2.size = k.size + 1 :=
    (s.perm_store time context payload).length_eq
  have hagenda := total_perm (f := fun e => e.payload.timedCalls)
    (s.agenda_store ht context payload)
  have hteardowns : (k.store time context payload).2.teardowns = k.teardowns := rfl
  rw [total_cons] at hagenda
  rw [liveReserve, liveReserve, liveCalls, liveCalls, hsize, hagenda, hteardowns, Nat.mul_succ]
  dsimp only
  omega

/-- What is registered for the destruction adds the calls in its body. -/
theorem liveReserve_register (k : Kernel Action) (a : Action) :
    (k.register a).2.liveReserve counts = k.liveReserve counts + a.timedCalls := by
  have hteardowns : total (fun e => e.action.timedCalls) (k.register a).2.teardowns =
      total (fun e => e.action.timedCalls) k.teardowns + a.timedCalls := total_append k.teardowns _
  have hagenda : (k.register a).2.agenda = k.agenda := rfl
  have hsize : (k.register a).2.size = k.size := rfl
  rw [liveReserve, liveReserve, liveCalls, liveCalls, hagenda, hsize, hteardowns]
  omega

/-- An agenda of events that were on another one. -/
theorem Sound.agenda_subperm (s : k.Sound) (s' : k'.Sound)
    (hstored : k'.scheduler.toList.Subperm k.scheduler.toList) (hpending : k'.pending ⊆ k.pending) :
    k'.agenda.Subperm k.agenda := by
  have hawaits : (k'.scheduler.toList.filter k'.awaits).Sublist
      (k'.scheduler.toList.filter k.awaits) := by
    refine List.monotone_filter_right _ fun e he => ?_
    exact decide_eq_true (hpending (of_decide_eq_true he))
  refine s'.perm_agenda.subperm.trans (hawaits.subperm.trans ?_)
  exact (hstored.filter _).trans s.perm_agenda.symm.subperm

/-- A kernel that has lost events has lost as much as these were worth. -/
theorem Sound.liveCalls_le (s : k.Sound) (s' : k'.Sound)
    (hstored : k'.scheduler.toList.Subperm k.scheduler.toList) (hpending : k'.pending ⊆ k.pending)
    (hteardowns : k'.teardowns.Subperm k.teardowns) : k'.liveCalls ≤ k.liveCalls :=
  Nat.add_le_add (total_le (s.agenda_subperm s' hstored hpending)) (total_le hteardowns)

theorem Sound.liveReserve_le (s : k.Sound) (s' : k'.Sound)
    (hstored : k'.scheduler.toList.Subperm k.scheduler.toList) (hpending : k'.pending ⊆ k.pending)
    (hteardowns : k'.teardowns.Subperm k.teardowns) :
    k'.liveReserve counts ≤ k.liveReserve counts :=
  Nat.add_le_add (Nat.mul_le_mul_left _ hstored.length_le)
    (s.liveCalls_le s' hstored hpending hteardowns)

/-- The agenda without an event that was on it. -/
theorem Sound.perm_agenda_cons (s : k.Sound) (s' : k'.Sound) {e : Event (Payload Action)}
    (hstored : k.scheduler.toList.Perm (e :: k'.scheduler.toList)) (he : e.key.uid ∈ k.pending)
    (hpending : k'.pending = k.pending.erase e.key.uid) : k.agenda.Perm (e :: k'.agenda) := by
  have hawaits : k.awaits e = true := decide_eq_true he
  have hleft : k'.scheduler.toList.filter k'.awaits = k'.scheduler.toList.filter k.awaits := by
    rw [← s.filter_awaits hstored, ← hpending]
    rfl
  refine s.perm_agenda.trans ((hstored.filter _).trans ?_)
  rw [List.filter_cons_of_pos hawaits, ← hleft]
  exact s'.perm_agenda.symm.cons e

/-- An event that starts is worth itself and the calls in its body. -/
theorem Sound.liveReserve_started (s : k.Sound) (s' : k'.Sound) {e : Event (Payload Action)}
    (hstored : k.scheduler.toList.Perm (e :: k'.scheduler.toList)) (he : e.key.uid ∈ k.pending)
    (hpending : k'.pending = k.pending.erase e.key.uid) (hteardowns : k'.teardowns = k.teardowns) :
    k'.liveReserve counts + (counts.toNat + e.payload.timedCalls) = k.liveReserve counts := by
  have hsize : k.size = k'.size + 1 := hstored.length_eq
  have hagenda := total_perm (f := fun e => e.payload.timedCalls)
    (s.perm_agenda_cons s' hstored he hpending)
  rw [total_cons] at hagenda
  rw [liveReserve, liveReserve, liveCalls, liveCalls, hsize, hagenda, hteardowns, Nat.mul_succ]
  omega

/-- An event that is skipped is worth itself. -/
theorem Sound.liveReserve_skipped (s : k.Sound) (s' : k'.Sound) {e : Event (Payload Action)}
    (hstored : k.scheduler.toList.Perm (e :: k'.scheduler.toList))
    (hpending : k'.pending = k.pending) (hteardowns : k'.teardowns = k.teardowns) :
    k'.liveReserve counts + counts.toNat ≤ k.liveReserve counts := by
  have hrest := (List.sublist_cons_self e _).subperm.trans hstored.symm.subperm
  have hcalls := s.liveCalls_le s' hrest (hpending ▸ List.Subset.refl _) (hteardowns ▸ .refl _)
  have hsize : k.size = k'.size + 1 := hstored.length_eq
  rw [liveReserve, liveReserve, hsize, Nat.mul_succ]
  omega

/-- A teardown event that starts is worth the calls in its body. -/
theorem liveReserve_unwound {e : TeardownEvent Action} {l : List (TeardownEvent Action)}
    (ht : k.teardowns = e :: l) :
    liveReserve counts { k with teardowns := l } + e.action.timedCalls = k.liveReserve counts := by
  have hagenda : agenda { k with teardowns := l } = k.agenda := rfl
  have hsize : size { k with teardowns := l } = k.size := rfl
  rw [liveReserve, liveReserve, liveCalls, liveCalls, hagenda, hsize, ht, total_cons]
  dsimp only
  omega

/-- **What an effect uses was in reserve or is booked.** -/
theorem Effect.liveReserve_le (h : k.Effect n k') (s : k.Sound) (s' : k'.Sound) (counts : Bool) :
    k'.liveReserve counts + total (Note.used counts) n.toList ≤
      k.liveReserve counts + total Note.booked n.toList := by
  have hsame {l : List Nat} : l ⊆ l := List.Subset.refl l
  have htail {α : Type} {x : α} {l : List α} : l.Subperm (x :: l) :=
    (List.sublist_cons_self x l).subperm
  cases h with
  | still ha =>
    exact s.liveReserve_le s' ha.stored.subperm (ha.pending ▸ hsame) (ha.teardowns ▸ .refl _)
  | ended => exact Nat.le_refl _
  | stored time context payload ht =>
    rw [s.liveReserve_store ht]
    exact Nat.add_le_add_left (Nat.add_le_add_right counts.toNat_le _) _
  | registered a =>
    rw [liveReserve_register]
    exact Nat.add_le_add_left (Nat.le_add_left a.timedCalls 0) _
  | unmoved => exact Nat.le_refl _
  | marked => exact s.liveReserve_le s' (.refl _) List.erase_subset (.refl _)
  | dropped _ _ _ hp =>
    exact s.liveReserve_le s' (htail.trans hp.symm.subperm) List.erase_subset (.refl _)
  | dismissed _ _ _ hp => exact s.liveReserve_le s' (.refl _) hsame (htail.trans hp.symm.subperm)
  | started hp _ hu => exact Nat.le_of_eq (s.liveReserve_started s' hp hu rfl rfl)
  | skipped hp => exact s.liveReserve_skipped s' hp rfl rfl
  | unwound ht => exact Nat.le_of_eq (liveReserve_unwound ht)
  | swept => exact s.liveReserve_le s' List.nil_subperm (List.nil_subset _) (.refl _)
  | vanished => exact s.liveReserve_le s' List.nil_subperm (List.nil_subset _) List.nil_subperm

/-- **A kernel uses nothing but its reserve and what is booked.** -/
theorem Undergoes.liveReserve_le {l : List (Note Action)} (h : k.Undergoes l k') (s : k.Sound)
    (counts : Bool) : k'.liveReserve counts + total (Note.used counts) l ≤
      k.liveReserve counts + total Note.booked l := by
  induction h with
  | refl => exact Nat.le_refl _
  | @does k k' k'' d l hd ha _ ih =>
    have hstep := (s.effect hd ha).liveReserve_le s (s.does hd ha) counts
    have hrest := ih (s.does hd ha)
    rw [total_append, total_append]
    omega

end Kernel

/-! ### All kernels together -/

/-- The notes about all kernels, one after the other, are notes of the list. -/
theorem sum_notesAbout_le (f : Note Action → Nat) (s : Finset KernelId)
    (l : List (KernelId × Note Action)) :
    ∑ id ∈ s, total f (notesAbout id l) ≤ total (fun p => f p.2) l := by
  induction l with
  | nil => exact Nat.le_of_eq (Finset.sum_eq_zero fun _ _ => rfl)
  | cons p l ih =>
    have hcons (id : KernelId) : total f (notesAbout id (p :: l)) =
        (if p.1 = id then f p.2 else 0) + total f (notesAbout id l) := by
      unfold notesAbout
      rw [List.filterMap_cons]
      split_ifs with h
      · rfl
      · exact (Nat.zero_add _).symm
    have hone : ∑ id ∈ s, (if p.1 = id then f p.2 else 0) ≤ f p.2 := by
      rw [Finset.sum_ite_eq]
      split_ifs
      · exact Nat.le_refl _
      · exact Nat.zero_le _
    rw [Finset.sum_congr rfl fun id _ => hcons id, Finset.sum_add_distrib, total_cons]
    exact Nat.add_le_add hone ih

namespace World

variable {w w' : World} {id : KernelId} {l : List (KernelId × Note Action)}

/-- The timed scheduling calls that occur in the bodies of all live events and teardown events. -/
def liveCalls (w : World) : Nat := w.across fun _ k => k.liveCalls

/-- What the live events of all kernels have in reserve. -/
def liveReserve (w : World) (counts : KernelId → Bool) : Nat :=
  w.across fun id k => k.liveReserve (counts id)

theorem liveReserve_eq (w : World) (counts : KernelId → Bool) :
    w.liveReserve counts = w.stored counts + w.liveCalls :=
  w.across_add _ _

theorem across_mono {f g : KernelId → Kernel Action → Nat} (h : ∀ id k, f id k ≤ g id k) :
    w.across f ≤ w.across g := by
  refine Finset.sum_le_sum fun id _ => ?_
  cases w.kernel? id with
  | none => exact Nat.le_refl _
  | some k => exact h id k

/-- Some kernels are a part of all of them. -/
theorem sum_le_across (w : World) (f : KernelId → Kernel Action → Nat) (s : Finset KernelId) :
    ∑ id ∈ s, (w.kernel? id).elim 0 (f id) ≤ w.across f := by
  refine Finset.sum_le_sum_of_ne_zero fun id _ hne => Finset.mem_range.2 ?_
  refine Nat.lt_of_not_le fun hlen => hne ?_
  rw [kernel?_of_length_le hlen, Option.elim_none]

theorem le_across {k : Kernel Action} (f : KernelId → Kernel Action → Nat)
    (hk : w.kernel? id = some k) : f id k ≤ w.across f := by
  have h := w.sum_le_across f {id}
  rwa [Finset.sum_singleton, hk, Option.elim_some] at h

/-- A kernel that is not there yet has nothing in reserve. -/
theorem Has.liveReserve_eq {k : Kernel Action} (h : w.Has id k) (counts : Bool) :
    k.liveReserve counts = (w.kernel? id).elim 0 (Kernel.liveReserve counts) := by
  rcases h with h | ⟨hlen, systemId, rfl⟩
  · rw [h, Option.elim_some]
  · rw [kernel?_of_length_le hlen, Kernel.liveReserve_fresh, Option.elim_none]

/-- **All kernels together use nothing but their reserve and what is booked.** -/
theorem Lives.across_le (h : w.Lives l w') (s : w.Sound) (counts : KernelId → Bool) :
    w'.across (fun id k => k.liveReserve (counts id) +
      total (Note.used (counts id)) (notesAbout id l)) ≤
      w.liveReserve counts + total (fun p => p.2.booked) l := by
  let before (id : KernelId) : Nat := (w.kernel? id).elim 0 (Kernel.liveReserve (counts id))
  let booked (id : KernelId) : Nat := total Note.booked (notesAbout id l)
  have hkernel (id : KernelId) : (w'.kernel? id).elim 0 (fun k => k.liveReserve (counts id) +
      total (Note.used (counts id)) (notesAbout id l)) ≤ before id + booked id := by
    cases hk' : w'.kernel? id with
    | none => exact Nat.zero_le _
    | some k' =>
      obtain ⟨k, hk, hu⟩ := h.undergoes (.inl hk')
      have hbefore : k.liveReserve (counts id) = before id := hk.liveReserve_eq (counts id)
      rw [← hbefore]
      exact hu.liveReserve_le (hk.sound s) (counts id)
  have hrange : ∑ id ∈ Finset.range w'.engines.length, before id ≤ w.liveReserve counts :=
    w.sum_le_across _ _
  calc w'.across _
      ≤ ∑ id ∈ Finset.range w'.engines.length, (before id + booked id) :=
        Finset.sum_le_sum fun id _ => hkernel id
    _ = ∑ id ∈ Finset.range w'.engines.length, before id +
          ∑ id ∈ Finset.range w'.engines.length, booked id := Finset.sum_add_distrib
    _ ≤ _ := Nat.add_le_add hrange (sum_notesAbout_le Note.booked _ l)

theorem Lives.liveReserve_le (h : w.Lives l w') (s : w.Sound) (counts : KernelId → Bool) :
    w'.liveReserve counts ≤ w.liveReserve counts + total (fun p => p.2.booked) l :=
  (across_mono fun _ _ => Nat.le_add_right _ _).trans (h.across_le s counts)

/-- **What one kernel does by itself is paid out of the reserve.** -/
theorem Lives.liveReserve_noted {d : Deed Action} {k : Kernel Action} {n : Note Action}
    (h : w.Lives (w.noted id d) w') (s : w.Sound) (hk : w.kernel? id = some k)
    (hn : k.note? d = some n) (counts : KernelId → Bool) :
    w'.liveReserve counts + n.used (counts id) ≤ w.liveReserve counts + n.booked := by
  have hnoted : w.noted id d = [(id, n)] := by
    rw [noted, hk, Option.bind_some, hn]
    rfl
  have habout : notesAbout id [(id, n)] = [n] := notesAbout_self id (some n)
  obtain ⟨k', hk'⟩ := Option.isSome_iff_exists.1 (h.stays (Option.isSome_iff_exists.2 ⟨k, hk⟩))
  have hall := h.across_le s counts
  rw [hnoted, across_add, total_cons, total_nil] at hall
  -- of what all kernels use only the part of this one is needed
  have hone := le_across
    (fun id' _ => total (Note.used (counts id')) (notesAbout id' [(id, n)])) hk'
  rw [habout, total_cons, total_nil] at hone
  exact (Nat.add_le_add_left hone _).trans hall

/-! ### What a command books -/

theorem booked_note?_le {q : Request} {n : Nat} (h : q.Counts n) :
    total (fun p => p.2.booked) q.note?.toList ≤ n + q.payload.timedCalls := by
  cases hn : q.note? with
  | none => exact Nat.zero_le _
  | some p =>
    obtain ⟨id, note⟩ := p
    unfold Request.note? at hn
    split at hn
    · rename_i g hr
      obtain ⟨j, hj, heq⟩ := Option.map_eq_some_iff.1 hn
      cases heq
      refine Nat.add_le_add_right ?_ q.payload.timedCalls
      split_ifs with hkind
      · exact h g hr (hj ▸ rfl) hkind
      · exact Nat.zero_le n
    · cases hn

theorem booked_requestAction_le (w : World) (t : Target) (timing : Timing) (name : HandleName)
    (a : Action) : total (fun p => p.2.booked) (w.requestAction t timing name a).note?.toList ≤
      timing.calls + a.timedCalls :=
  booked_note?_le (w.counts_requestAction t timing name a)

theorem booked_requestsEach_le (t : Target) (name : Option HandleName) (a : Action)
    (delays : List Time) (w : World) (i : Nat) :
    total (fun p => p.2.booked) ((w.requestsEach t name a i delays).filterMap Request.note?) ≤
      delays.length * (a.timedCalls + 1) := by
  induction delays generalizing w i with
  | nil => exact Nat.zero_le _
  | cons delay rest ih =>
    have hone := booked_requestAction_le w t (.after delay)
      (name.getD (.word ((a.numbered i).tag.getD ""))) (a.numbered i)
    have hcalls : (Timing.after delay).calls = 1 := rfl
    rw [Action.timedCalls_numbered, hcalls, Nat.add_comm] at hone
    rw [requestsEach, filterMap_note?_cons, total_append, List.length_cons, Nat.succ_mul,
      Nat.add_comm]
    refine Nat.add_le_add ?_ hone
    split
    · exact Nat.zero_le _
    · exact ih _ (i + 1)

/-- **A command books no more than the timed scheduling calls that occur in it.** -/
theorem booked_notes_le (w : World) (c : Command) :
    total (fun p => p.2.booked) (w.notes c) ≤ c.timedCalls := by
  have hone (q : Request) : [q].filterMap Request.note? = q.note?.toList := by
    rw [filterMap_note?_cons, List.filterMap_nil, List.append_nil]
  have hnone (hc : w.requests c = []) : total (fun p => p.2.booked) (w.notes c) ≤ c.timedCalls := by
    have hzero : ∀ p ∈ w.notes c, p.2.booked = 0 := by
      rintro ⟨id, n⟩ hn
      rcases mem_notes hn with ⟨q, hq, -⟩ | ⟨h, lost, rfl⟩
      · rw [hc] at hq
        cases hq
      · rfl
    rw [total_eq_zero hzero]
    exact Nat.zero_le _
  cases c with
  | schedule t timing name a =>
    have h := booked_requestAction_le w t timing name a
    rwa [← hone] at h
  | scheduleEach t delays name a => exact booked_requestsEach_le t name a delays w 0
  | chain t tag delay length name =>
    cases length with
    | zero => exact hnone rfl
    | succ left =>
      have h := booked_requestAction_le w t (.after delay) name (link t tag delay left name)
      have hlength : (Timing.after delay).calls + left = left + 1 := Nat.add_comm 1 left
      rwa [← hone, timedCalls_link, hlength] at h
  | stopAfter t delay name =>
    have h := booked_note?_le (q := w.requestStop t delay name) fun _ _ _ _ => Nat.le_refl 1
    rwa [← hone] at h
  | _ => exact hnone rfl

end World

end EventSim
