import EventSim.Proofs.History.Causality
import EventSim.Proofs.Kernel.Liveness

/-!
# Handles over the life of a kernel

`Permitted.handle_liveness` says of every handle that some kernel has answered, and of the handle of
no kernel, what it is to a kernel after any lawful history: **it is live if this kernel has issued
it and its event has not started, been withdrawn or swept since**; once expired it stays so; calls
on an expired handle change nothing but what a cancelled event has left behind, and a live one has a
delay left.
-/

namespace EventSim

namespace History

open Machine

variable {environment : Option String} {l l' : List Move} {id : KernelId} {k k' : Kernel Action}
  {h : Handle}

/-- Some kernel has answered the handle, or it is the one that no kernel issues. -/
def Returned (environment : Option String) (l : List Move) (h : Handle) : Prop :=
  h = .none ∨ ∃ id payload, .issued h payload ∈ record environment id l

theorem Permitted.tracked (hl : Permitted Command.Lawful environment l)
    (hk : (after environment l).world.kernel? id = some k) :
    k.Tracked (record environment id l) :=
  hl.keeps hk (Kernel.tracked_fresh id) fun s hd he hI => hI.does s hd he

/-- A handle of this kernel is one that its record tells of. -/
theorem Returned.issued (hh : Returned environment l h) (hid : k.id = id) (hi : k.Issued h) :
    ∃ payload, .issued h payload ∈ record environment id l := by
  rcases hh with rfl | ⟨j, payload, hm⟩
  · cases hi
  · obtain ⟨newer, x, older, -, hx⟩ := exists_move hm
    obtain ⟨q, -, -, -, ho⟩ := request_of_issued hx
    have hj : j = id := Option.some.inj (ho.symm.trans (hi.trans (congrArg some hid)))
    exact ⟨payload, hj ▸ hm⟩

/-- **Liveness of handles is exact and expiry is for good.** -/
theorem Permitted.handle_liveness (hl : Permitted Command.Lawful environment l)
    (hk : (after environment l).world.kernel? id = some k) (hh : Returned environment l h) :
    (k.isExpired h = false ↔ LiveIn (record environment id l) h) ∧
    (k.isExpired h = true → ∀ l' k', Permitted Command.Lawful environment l' → l <:+ l' →
      (after environment l').world.kernel? id = some k' → k'.isExpired h = true) ∧
    (k.isExpired h = true → k.cancel h = (none, k) ∧
      (if k.Issued h ∧ h.kind = .timed ∧ h.uid ∈ k.cancelled then
        ∃ e rest, e.key.Same h.key ∧ k.scheduler.toList.Perm (e :: rest.toList) ∧
          k.remove h = (e.payload.action?,
            { k with scheduler := rest, cancelled := k.cancelled.erase h.uid })
      else k.remove h = (none, k)) ∧
      k.delayLeft h = .ok (.error (.expiredHandle h.uid))) ∧
    (k.isExpired h = false → ∃ left, k.delayLeft h = .ok (.ok left)) := by
  have ht := hl.tracked hk
  have hid := hl.id_eq hk
  have hs := hl.sound hk
  have hissued := hh.issued hid
  have hknows (hi : k.Issued h) : k.Knows h := by
    obtain ⟨payload, hm⟩ := hissued hi
    exact (ht.known h payload hm).2
  refine ⟨ht.isExpired_eq_false_iff hissued, fun hx l' k' hl' hsuffix hk' => ?_,
    fun hx => ⟨Kernel.cancel_of_isExpired hx, hs.remove_of_isExpired hknows hx,
      Kernel.delayLeft_of_isExpired hx⟩, fun hlive => ?_⟩
  · exact ht.isExpired_of_suffix (hl'.tracked hk') ((hl'.id_eq hk').trans hid.symm)
      (record_suffix environment id hsuffix) hissued hx
  · exact hs.delayLeft_of_live (hknows (Kernel.isExpired_eq_false.1 hlive).1) hlive

/-- The first event has just cancelled the second one, which is still stored. -/
def lazyCancel : List Move :=
  let t : Target := .kernel (.numbered 0)
  [.step, .step, .call (.run t),
    .call (.schedule t (.after (.clamp 2)) (.numbered 2) (.silent [])),
    .call (.schedule t (.after (.clamp 1)) (.numbered 1) (.silent [.cancel t (.numbered 2)])),
    .call (.build none (.builtIn 0))]

/-- The handle of the cancelled event. -/
def cancelledHandle : Handle := .ofKey (some 0) ⟨.clamp 2, 2, noContext⟩

theorem permitted_lazyCancel : Permitted Command.Lawful none lazyCancel := by
  simp only [lazyCancel, Permitted, Allows]
  refine ⟨trivial, trivial, ⟨rfl, ?_⟩, ⟨rfl, ?_⟩, ⟨rfl, ?_⟩, ⟨rfl, ?_⟩, trivial⟩
  all_goals simp [Command.All, Action.silent, Action.All, allOf, Command.Lawful]

theorem handle_liveness_lazyCancel : ∃ k, (after none lazyCancel).world.kernel? 0 = some k ∧
    Returned none lazyCancel cancelledHandle ∧ cancelledHandle.uid ∈ k.cancelled ∧
    ¬ LiveIn (record none 0 lazyCancel) cancelledHandle ∧ k.cancel cancelledHandle = (none, k) ∧
    k.delayLeft cancelledHandle = .ok (.error (.expiredHandle 2)) := by
  obtain ⟨k, hk, hx, hc⟩ : ∃ k, (after none lazyCancel).world.kernel? 0 = some k ∧
      k.isExpired cancelledHandle = true ∧ cancelledHandle.uid ∈ k.cancelled :=
    ⟨_, rfl, rfl, .head _⟩
  have hh : Returned none lazyCancel cancelledHandle :=
    .inr ⟨0, .act (.silent []), List.mem_of_getElem? (i := 2) rfl⟩
  obtain ⟨hlive, -, hcalls, -⟩ := permitted_lazyCancel.handle_liveness hk hh
  refine ⟨k, hk, hh, hc, fun h => ?_, (hcalls hx).1, (hcalls hx).2.2⟩
  rw [hlive.2 h] at hx
  cases hx

end History

end EventSim
