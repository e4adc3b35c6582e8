import EventSim.Proofs.World.Requests

/-!
# The context of a kernel

The context of a kernel is set when an event starts and when a run loop ends, and at no other time.
`Sets` are the happenings that do this, and `Retains` says that **everything else leaves the context
of a kernel as it is**.  No lawfulness is asked for.
-/

namespace EventSim

/-- The deed sets the context. -/
def Deed.Sets {α : Type} : Deed α → Prop
  | .started _ | .ended => True
  | _ => False

/-- The happening sets the context of the kernel. -/
def Happening.Sets (id : KernelId) : Happening → Prop
  | .did j d => j = id ∧ d.Sets
  | _ => False

namespace Kernel

variable {α : Type} {k k' : Kernel α} {d : Deed α}

theorem Does.context (hd : k.Does d k') (hn : ¬ d.Sets) : k'.context = k.context := by
  cases hd with
  | issued hi => cases hi <;> rfl
  | removed h =>
    unfold Kernel.remove
    split
    · split
      · rfl
      · dsimp only
        split <;> rfl
    · rfl
  | cancelled h =>
    unfold Kernel.cancel
    split
    · split
      · rfl
      · split <;> rfl
    · rfl
  | skipped hq =>
    obtain ⟨e, rest, -, -, -, rfl⟩ := dequeue_eq_skipped hq
    rfl
  | strayed hq =>
    obtain ⟨e, rest, -, -, -, rfl⟩ := dequeue_eq_past hq
    rfl
  | unwound hq =>
    obtain ⟨l, -, rfl⟩ := popTeardown_eq_some.1 hq
    rfl
  | started | ended => exact (hn trivial).elim
  | _ => rfl

end Kernel

namespace World

variable {w w' w'' : World} {id : KernelId} {x : Happening}

/-- The context of a kernel, none if there is no built-in one. -/
def contextAt (w : World) (id : KernelId) : Context :=
  ((w.kernel? id).map Kernel.context).getD noContext

theorem contextAt_of_kernel? {k : Kernel Action} (h : w.kernel? id = some k) :
    w.contextAt id = k.context := by
  rw [contextAt, h]
  rfl

theorem contextAt_of_none (h : w.kernel? id = none) : w.contextAt id = noContext := by
  rw [contextAt, h]
  rfl

/-- A built-in kernel stays one and keeps its context. -/
structure Retains (id : KernelId) (w w' : World) : Prop where
  context : w'.contextAt id = w.contextAt id
  stays : (w.kernel? id).isSome → (w'.kernel? id).isSome

theorem Retains.refl (id : KernelId) (w : World) : Retains id w w := ⟨rfl, fun h => h⟩

theorem Retains.trans (h : Retains id w w') (g : Retains id w' w'') : Retains id w w'' :=
  ⟨g.context.trans h.context, fun hk => g.stays (h.stays hk)⟩

theorem Retains.of_kernel? (h : w'.kernel? id = w.kernel? id) : Retains id w w' :=
  ⟨by rw [contextAt, h, ← contextAt], fun hk => h ▸ hk⟩

theorem Retains.of_engines (h : w'.engines = w.engines) : Retains id w w' :=
  .of_kernel? (kernel?_congr h id)

theorem retains_made (w : World) (spec : KernelSpec) :
    Retains id w { w with engines := w.engines ++ [Engine.make w.engines.length spec] } := by
  refine ⟨?_, (lives_made w spec).stays⟩
  cases hw : w.kernel? id with
  | some k => rw [contextAt_of_kernel? (kernel?_made hw spec), contextAt_of_kernel? hw]
  | none =>
    rw [contextAt_of_none hw]
    cases hk : ({ w with engines := w.engines ++ [Engine.make w.engines.length spec] } :
        World).kernel? id with
    | none => exact contextAt_of_none hk
    | some k =>
      rw [contextAt_of_kernel? hk]
      rcases has_of_made hk with hold | ⟨-, systemId, rfl⟩
      · rw [hw] at hold
        cases hold
      · rfl

theorem retains_did {watched : Bool} {k k' : Kernel Action} {d : Deed Action} {j : KernelId}
    (hk : w.engine? j = some (.builtIn watched k)) (hd : k.Does d k')
    (hn : ¬ Happening.Sets id (.did j d)) : Retains id w (w.setEngine j (.builtIn watched k')) := by
  by_cases hj : j = id
  · subst hj
    have hk' := kernel?_eq_some.2 ⟨watched, engine?_setEngine_self hk (.builtIn watched k')⟩
    refine ⟨?_, fun _ => by rw [hk']; rfl⟩
    rw [contextAt_of_kernel? hk', contextAt_of_kernel? (kernel?_eq_some.2 ⟨watched, hk⟩)]
    exact hd.context fun hs => hn ⟨rfl, hs⟩
  · exact .of_kernel? (by rw [kernel?, engine?_setEngine_ne _ hj, ← kernel?])

theorem retains_attach (w : World) (j : KernelId) (b : Backend) : Retains id w (w.attach j b) :=
  attach_induction (I := fun v => Retains id w v) (.refl id w)
    (fun _ _ ha hv => hv.trans (.of_engines ha.engines))
    fun _ _ k hk hv => hv.trans (retains_did hk (.attached k b) fun hs => hs.2)

/-- **Only the start of an event and the end of a run loop set the context of a kernel.** -/
theorem Happens.retains (h : w.Happens x w') (hn : ¬ x.Sets id) : Retains id w w' := by
  cases h with
  | aside ha => exact .of_engines ha.engines
  | made spec => exact retains_made w spec
  | did hk hd => exact retains_did hk hd hn
  | issued name hk hi => exact (retains_did hk (.issued hi) hn).trans (.of_engines rfl)
  | @occupied j name b =>
    have hslot : Retains id w { w with slot := some j } := .of_engines rfl
    have hattach := hslot.trans (retains_attach { w with slot := some j } j b)
    exact hattach.trans (.of_engines rfl)
  | configured => exact retains_attach w _ _
  | _ => exact .of_engines rfl

theorem Evolves.retains (h : Evolves (fun x => ¬ x.Sets id) w w') : Retains id w w' :=
  h.keeps (I := fun v => Retains id w v) (fun _ _ _ hx hn hv => hv.trans (hx.retains hn))
    (.refl id w)

theorem not_sets_of_building (h : Building x) : ¬ x.Sets id := by
  cases x <;> first | exact h.elim | exact fun hs => hs

/-- No command that starts sets a context by itself. -/
theorem not_sets_of_brings {c : Command} (h : c.Brings w x) : ¬ x.Sets id := by
  cases x with
  | did j d =>
    rintro ⟨-, hs⟩
    cases d <;> first | exact hs.elim | exact h.elim
  | _ => exact fun hs => hs

end World

end EventSim
