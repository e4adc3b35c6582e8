import EventSim.Proofs.Machine.Housing
import EventSim.Proofs.Sessions.Interruption

/-!
# Handles and the kernels that issued them

A handle names the kernel that issued it by its number among all kernels made so far.  As long as
no handle is put together by hand, every saved handle names a kernel that was made, or none.  So
**after any program, a kernel that is still to be made is named by no handle and known under no
name** (`Orderly.after`): whatever its number will be, it is new to everybody.
-/

namespace EventSim

/-- The command uses handles as they were issued. -/
def Command.Genuine : Command → Prop
  | .forge .. => False
  | _ => True

theorem Command.Staged.genuine {c : Command} (h : c.Staged) : c.Genuine := by
  cases c with
  | forge => exact h
  | _ => trivial

theorem Command.Genuine.brings {w : World} {c : Command} {x : Happening} (h : c.Genuine)
    (hx : c.Brings w x) : x ≠ .forged := by
  rintro rfl
  obtain ⟨_, _, _, _, _, _, rfl⟩ := hx
  exact h

theorem Frame.All.genuine {w : World} {f : Frame} {x : Happening} (h : f.All Command.Genuine)
    (hx : f.Brings w x) : x ≠ .forged := by
  rintro rfl
  cases f with
  | body reporting left =>
    cases left with
    | nil => cases hx
    | cons c left =>
      have hc : c.Brings w .forged := hx
      exact (h c List.mem_cons_self).self.brings hc rfl
  | answering => cases hx
  | running id | destroying id => rcases hx with hx | ⟨d, -, hx⟩ <;> cases hx
  | clearing found => rcases hx with hx | hx | ⟨id, -, hx⟩ <;> cases hx
  | scenario run stage =>
    cases stage with
    | probing saved left replies =>
      cases left with
      | nil => cases hx
      | cons probe left =>
        have hc : probe.command.Brings w .forged := hx
        exact (h probe List.mem_cons_self).self.brings hc rfl
    | judged => rcases hx with hx | hx <;> cases hx
    | _ => cases hx

namespace World

/-- Every kernel knows where it is, and a saved handle names a kernel that was made, or none. -/
structure Owned (w : World) : Prop where
  numbered : w.Numbered
  owners : ∀ p ∈ w.handles, ∀ id, p.2.owner = some id → id < w.engines.length

variable {w w' : World} {id : KernelId} {x : Happening}

theorem Owned.aside (h : w.Owned) (ha : w.Aside w') : w'.Owned := by
  refine ⟨h.numbered.aside ha, fun p hp => ?_⟩
  rw [ha.handles] at hp
  rw [ha.engines]
  exact h.owners p hp

theorem Owned.slot (h : w.Owned) (slot : Option KernelId) (printers : Printers) :
    { w with slot := slot, printers := printers }.Owned := ⟨h.numbered, h.owners⟩

theorem Owned.did {watched : Bool} {k k' : Kernel Action} {d : Deed Action} (h : w.Owned)
    (hk : w.engine? id = some (.builtIn watched k)) (hd : k.Does d k') :
    (w.setEngine id (.builtIn watched k')).Owned := by
  refine ⟨h.numbered.did hk hd, fun p hp => ?_⟩
  rw [length_setEngine]
  exact h.owners p hp

theorem Owned.save {name : HandleName} {g : Handle} (h : w.Owned)
    (hg : ∀ id, g.owner = some id → id < w.engines.length) : (w.save name g).Owned :=
  ⟨h.numbered, List.forall_mem_cons.2 ⟨hg, h.owners⟩⟩

theorem Owned.attach (h : w.Owned) (id : KernelId) (b : Backend) : (w.attach id b).Owned :=
  attach_induction (I := Owned) h (fun _ _ ha hv => hv.aside ha)
    fun _ _ k hk hv => hv.did hk (.attached k b)

/-- Whatever happens, handles name kernels that were made, unless one is put together by hand. -/
theorem Owned.happens (h : w.Owned) (hw : w.Happens x w') (hx : x ≠ .forged) : w'.Owned := by
  cases hw with
  | aside ha => exact h.aside ha
  | made spec =>
    refine ⟨h.numbered.made spec, fun p hp id ho => ?_⟩
    rw [List.length_append]
    exact Nat.lt_add_right _ (h.owners p hp id ho)
  | did hk hd hp => exact h.did hk hd
  | issued name hk hi =>
    refine (h.did hk (.issued hi)).save fun j hj => ?_
    rw [owner_of_issues hi, h.numbered _ _ _ hk] at hj
    cases hj
    rw [length_setEngine]
    exact (List.getElem?_eq_some_iff.1 hk).1
  | blank name => exact h.save fun _ ho => by cases ho
  | forged => exact absurd rfl hx
  | @occupied id name b hs hb =>
    exact ((h.slot (some id) w.printers).attach id b).slot _ .standard
  | configured hb => exact h.attach _ _
  | enlisted => exact ⟨h.numbered, h.owners⟩
  | vacated => exact h.slot none w.printers
  | unprinted => exact h.slot w.slot .none
  | printed p => exact h.slot w.slot p

/-- The kernels that are known and the handles that are saved are those of kernels that were made,
and all that the kernels hold uses handles as they were issued. -/
structure Orderly (w : World) : Prop where
  owned : w.Owned
  housed : w.Housed
  holds : w.Holds (Action.All Command.Genuine)

end World

namespace Machine

/-- The world is orderly, and all that is still to be carried out keeps it so. -/
structure Orderly (m : Machine) : Prop where
  owned : m.world.Owned
  housed : m.world.Housed
  carries : m.Carries Command.Genuine

variable {m : Machine}

theorem Orderly.step (h : m.Orderly) : m.step.Orderly := by
  refine ⟨?_, housed_make h.housed .step, h.carries.step fun _ => Command.Staged.genuine⟩
  obtain ⟨w, stack, result⟩ := m
  cases stack with
  | nil => exact h.owned
  | cons f rest =>
    refine (evolves_step f rest).keeps (fun v x v' hx hb hv => hv.happens hx ?_) h.owned
    exact (h.carries.waiting f List.mem_cons_self).genuine hb

theorem Orderly.steps (h : m.Orderly) (n : Nat) : (steps n m).Orderly :=
  keeps_steps Orderly Orderly.step h n

end Machine

namespace World

variable {w : World} {c : Command} {P : List Command}

theorem Orderly.call (h : w.Orderly) (hc : c.All Command.Genuine) : (w.call c).2.Orderly := by
  have hstart : (Machine.ofCall w c).Orderly := by
    refine ⟨?_, Machine.housed_start h.housed c, .ofCall h.holds hc⟩
    refine (Machine.evolves_start c).keeps (fun v x v' hx hb hv => hv.happens hx ?_) h.owned
    exact hc.self.brings hb
  have hrun := hstart.steps (Machine.ofCall w c).weight
  exact ⟨hrun.owned, hrun.housed, hrun.carries.stored⟩

/-- **After any program, the handles and the names are those of kernels that were made.** -/
theorem Orderly.after (h : w.Orderly) (hP : ∀ c ∈ P, c.All Command.Genuine) :
    (w.after P).Orderly := by
  induction P generalizing w with
  | nil => exact h
  | cons c rest ih =>
    obtain ⟨hc, hrest⟩ := List.forall_mem_cons.1 hP
    exact ih (h.call hc) hrest

end World

end EventSim
