import EventSim.Proofs.Machine.Steps

/-!
# Registered teardown events

A teardown event leaves its kernel in three ways only: it is its turn, it is withdrawn through its
handle, or the kernel goes as a whole.  `Registered.evolves` says that it stays registered as long
as none of these happens.
-/

namespace EventSim

namespace Kernel

variable {α : Type} {k k' : Kernel α} {d : Deed α} {e : TeardownEvent α}

/-- A teardown event leaves its kernel only when it is its turn, when it is withdrawn or when the
kernel goes. -/
theorem Does.teardowns (hd : k.Does d k') (he : e ∈ k.teardowns) :
    e ∈ k'.teardowns ∨ d = .unwound e ∨ d = .vanished ∨
      ∃ h, (d = .removed h ∨ d = .cancelled h) ∧ k.Issued h ∧ h.kind = .teardown ∧
        h.uid = e.uid := by
  have htake (h : Handle) :
      e ∈ (k.takeTeardown h.uid).2.teardowns ∨ h.uid = e.uid := by
    by_cases hu : e.uid = h.uid
    · exact .inr hu.symm
    · refine .inl ((List.mem_eraseP_of_neg ?_).2 he)
      simpa using hu
  cases hd with
  | issued hi =>
    cases hi with
    | stored => exact .inl he
    | registered => exact .inl (List.mem_append_left _ he)
  | removed h =>
    unfold Kernel.remove
    split
    · rename_i hi
      split
      · rename_i hk
        rcases htake h with ht | hu
        · exact .inl ht
        · exact .inr (.inr (.inr ⟨h, .inl rfl, hi, hk, hu⟩))
      · dsimp only
        split <;> exact .inl he
    · exact .inl he
  | cancelled h =>
    unfold Kernel.cancel
    split
    · rename_i hi
      split
      · rename_i hk
        rcases htake h with ht | hu
        · exact .inl ht
        · exact .inr (.inr (.inr ⟨h, .inr rfl, hi, hk, hu⟩))
      · split <;> exact .inl he
    · exact .inl he
  | started hq =>
    obtain ⟨rest, -, -, -, rfl⟩ := dequeue_eq_started hq
    exact .inl he
  | skipped hq =>
    obtain ⟨x, rest, -, -, -, rfl⟩ := dequeue_eq_skipped hq
    exact .inl he
  | strayed hq =>
    obtain ⟨x, rest, -, -, -, rfl⟩ := dequeue_eq_past hq
    exact .inl he
  | unwound hq =>
    obtain ⟨rest, ht, rfl⟩ := popTeardown_eq_some.1 hq
    rw [ht] at he
    rcases List.mem_cons.1 he with rfl | he
    · exact .inr (.inl rfl)
    · exact .inl he
  | vanished => exact .inr (.inr (.inl rfl))
  | _ => exact .inl he

end Kernel

variable {w w' : World} {id : KernelId} {e : TeardownEvent Action}

/-- The teardown event is registered with the kernel. -/
def World.Registered (w : World) (id : KernelId) (e : TeardownEvent Action) : Prop :=
  ∃ watched k, w.engine? id = some (.builtIn watched k) ∧ e ∈ k.teardowns

/-- The happening can take the teardown event out of the kernel. -/
def Ousts (id : KernelId) (e : TeardownEvent Action) (x : Happening) : Prop :=
  x = .did id (.unwound e) ∨ x = .did id .vanished ∨
    ∃ h, (x = .did id (.removed h) ∨ x = .did id (.cancelled h)) ∧ h.owner = some id ∧
      h.kind = .teardown ∧ h.uid = e.uid

namespace World

theorem registered_aside (h : w.Aside w') : w'.Registered id e ↔ w.Registered id e := by
  unfold Registered engine?
  rw [h.engines]

theorem Registered.setEngine {watched : Bool} {k k' : Kernel Action} {j : KernelId}
    (hr : w.Registered id e) (hk : w.engine? j = some (.builtIn watched k))
    (h : j = id → e ∈ k.teardowns → e ∈ k'.teardowns) :
    (w.setEngine j (.builtIn watched k')).Registered id e := by
  obtain ⟨watched', k'', hk'', he⟩ := hr
  by_cases hj : j = id
  · subst hj
    rw [hk] at hk''
    cases hk''
    exact ⟨watched, k', engine?_setEngine_self hk _, h rfl he⟩
  · exact ⟨watched', k'', (engine?_setEngine_ne _ hj).trans hk'', he⟩

theorem Registered.did {watched : Bool} {k k' : Kernel Action} {d : Deed Action} {j : KernelId}
    (hr : w.Registered id e) (hn : w.Numbered) (hk : w.engine? j = some (.builtIn watched k))
    (hd : k.Does d k') (hx : ¬ Ousts id e (.did j d)) :
    (w.setEngine j (.builtIn watched k')).Registered id e := by
  refine hr.setEngine hk fun hj he => ?_
  subst hj
  rcases hd.teardowns he with he | rfl | rfl | ⟨h, hd, hi, hkind, hu⟩
  · exact he
  · exact (hx (.inl rfl)).elim
  · exact (hx (.inr (.inl rfl))).elim
  · refine (hx (.inr (.inr ⟨h, ?_, hi.trans (congrArg some (hn _ _ _ hk)), hkind, hu⟩))).elim
    rcases hd with rfl | rfl
    · exact .inl rfl
    · exact .inr rfl

theorem Registered.attach (hr : w.Registered id e) (j : KernelId) (b : Backend) :
    (w.attach j b).Registered id e :=
  attach_induction (I := fun v => v.Registered id e) hr
    (fun _ _ ha hv => (registered_aside ha).2 hv)
    fun _ _ _ hk hv => hv.setEngine hk fun _ he => he

theorem Registered.happens {x : Happening} (hr : w.Registered id e) (hn : w.Numbered)
    (h : w.Happens x w') (hx : ¬ Ousts id e x) : w'.Registered id e := by
  cases h with
  | aside ha => exact (registered_aside ha).2 hr
  | made spec =>
    obtain ⟨watched, k, hk, he⟩ := hr
    refine ⟨watched, k, ?_, he⟩
    exact (List.getElem?_append_left (List.getElem?_eq_some_iff.1 hk).1).trans hk
  | did hk hd hp => exact hr.did hn hk hd hx
  | issued name hk hi => exact hr.did hn hk (.issued hi) hx
  | @occupied j name b hs hb => exact Registered.attach (w := { w with slot := some j }) hr j b
  | configured hb => exact hr.attach _ _
  | _ => exact hr

/-- What nothing takes out stays registered. -/
theorem Registered.evolves {P : Happening → Prop} (hr : w.Registered id e) (hn : w.Numbered)
    (h : Evolves P w w') (hx : ∀ x, P x → ¬ Ousts id e x) : w'.Registered id e :=
  (h.keeps (I := fun v => v.Numbered ∧ v.Registered id e)
    (fun _ _ _ hv hp hi => ⟨hi.1.happens hv, hi.2.happens hi.1 hv (hx _ hp)⟩) ⟨hn, hr⟩).2

/-! ### Kernels that have lost their place -/

theorem abandon_of_named (h : w.isNamed id = true) : w.abandon id = w := by rw [abandon, if_pos h]

/-- A kernel without a name goes with its teardown events. -/
theorem not_registered_abandon (h : w.isNamed id = false) : ¬ (w.abandon id).Registered id e := by
  rw [abandon, if_neg (by rw [h]; exact Bool.false_ne_true)]
  rintro ⟨watched, k, hk, he⟩
  split at hk
  · rename_i hnone
    rw [hnone] at hk
    cases hk
  · rename_i x hx
    have hx' : (w.releaseAll x.held).engine? id = some x := by
      rw [engine?, (aside_releaseAll w x.held).engines]
      exact hx
    rw [mapEngine_of_engine? hx', engine?_setEngine_self hx'] at hk
    cases x with
    | builtIn watched' k' =>
      cases hk
      cases he
    | fixed => cases hk

end World

end EventSim
