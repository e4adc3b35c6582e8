import EventSim.Proofs.Restart.Machines
import EventSim.Proofs.Restart.Owners
import EventSim.Proofs.Scenario.Isolation

/-!
# A restart forgets the past

A teardown that returns leaves the slot of the facade empty, and whatever the program before it has
done, the kernel that the facade builds next has a number that no saved handle names.  So, as long
as the configuration and the registry are as they were, **a program runs after another one as it
runs alone** (`restart_forgets`), although the numbers of events start again at one and a stale
handle may agree with a live one in everything but its owner.
-/

namespace EventSim

namespace World

/-- Nothing was made in the world and no handle is saved; it may have any configuration and any
registry. -/
structure Unused (w : World) : Prop where
  engines : w.engines = []
  slot : w.slot = none
  named : w.named = []
  handles : w.handles = []

/-- The handles that were issued to the programs so far. -/
def issued (w : World) : List Handle := w.handles.map Prod.snd

variable {w v : World} {P Q : List Command}

namespace Unused

theorem engine? (h : w.Unused) (id : KernelId) : w.engine? id = none := by
  rw [World.engine?, h.engines]
  rfl

theorem handle (h : w.Unused) (name : HandleName) : w.handle name = .none := by
  rw [World.handle, h.handles]
  rfl

theorem holds (h : w.Unused) (q : Action → Prop) : w.Holds q := by
  intro id watched k hk
  rw [h.engine?] at hk
  cases hk

theorem orderly (h : w.Unused) : w.Orderly where
  owned :=
    { numbered := fun id watched k hk => by
        rw [h.engine?] at hk
        cases hk
      owners := fun p hp => by
        rw [h.handles] at hp
        cases hp }
  housed :=
    { slot := fun hs => by
        rw [h.slot] at hs
        cases hs
      named := fun hp => by
        rw [h.named] at hp
        cases hp }
  holds := h.holds _

end Unused

/-- A world with an empty slot resumes an unused one. -/
theorem Orderly.resumes {noted : Prop} (h : v.Orderly) (hw : w.Unused) (hslot : v.slot = none)
    (hregistry : v.registry = w.registry) (hconfig : v.config = w.config)
    (hobserved : noted → v.observed = w.observed) :
    w.Resumes v.engines.length v.issued noted v where
  length := by rw [hw.engines, List.length_nil, Nat.zero_add]
  engine? id := by
    rw [hw.engine?]
    exact List.getElem?_eq_none (Nat.le_add_left _ id)
  slot := by rw [hslot, hw.slot, Option.map_none]
  named := hw.named
  bygone p hp := h.housed.named hp
  registry := hregistry
  config := hconfig
  handle name := by
    rw [hw.handle]
    rcases v.keeps_handle name with hnone | ⟨p, hp, hg⟩
    · rw [hnone]
      exact .issued .none
    · rw [← hg]
      exact .stale (List.mem_map_of_mem hp) (h.owned.owners p hp)
  observed := hobserved

/-- **A restart forgets the past.**  `P` is any program that takes handles as they are issued, and
the teardown after it returns.  If it has left the configuration and the registry as they were, all
that is seen of a program `Q` on the facade is what is seen of it in the unused world, where the
handles of `P` are handles of no kernel: the same events start at the same times and in the same
contexts, and all calls have the same answers.  Wherever `Q` comes to, the handles of `P` are
expired, and neither cancelling nor removing one changes anything. -/
theorem restart_forgets (hw : w.Unused) (hP : ∀ c ∈ P, c.All Command.Genuine)
    (hteardown : (w.after P).call .teardown = (.ok .done, v)) (hregistry : v.registry = w.registry)
    (hconfig : v.config = w.config) (hQ : ∀ c ∈ Q, c.All Command.OnFacade) :
    List.Forall₂ (Scene.Matches v.engines.length v.issued) (w.scenes Q) (v.scenes Q) ∧
      ∀ u, v.Comes Q u → ∀ g ∈ v.issued,
        u.isExpired .facade g = (.ok (.flag true), u) ∧ u.cancel .facade g = (.ok .done, u) ∧
          u.remove .facade g = (.ok .done, u) := by
  have horderly : v.Orderly := by
    have hcall := (hw.orderly.after hP).call (c := .teardown) trivial
    rwa [hteardown] at hcall
  have hslot := (slot_of_call_teardown hteardown).1
  have hresumes := horderly.resumes hw hslot hregistry hconfig
    (False.elim : False → v.observed = w.observed)
  have hstage : ∀ c ∈ Q, c.All (Command.OnStage False) :=
    fun c hc => (hQ c hc).imp fun _ => .inl
  refine ⟨hresumes.scenes (hw.holds _) hstage, fun u hu g hg => ?_⟩
  obtain ⟨w', h⟩ := hresumes.comes (hw.holds _) hstage hu
  obtain ⟨p, hp, rfl⟩ := List.mem_map.1 hg
  exact h.useless (horderly.owned.owners p hp)

/-- A program that is stopped in the middle of its run: one event is cancelled, another one is still
to come, and so is one at the teardown. -/
def haltedProgram : List Command :=
  [.schedule .facade (.after (.clamp 1)) (.numbered 1)
      (.silent [.cancel .facade (.numbered 2), .stop .facade]),
    .schedule .facade (.after (.clamp 2)) (.numbered 2) (.silent []),
    .schedule .facade (.after (.clamp 3)) (.numbered 3) (.silent []),
    .schedule .facade .atTeardown (.numbered 4) (.silent []),
    .run .facade]

/-- A program that goes on to use the handles of the one before it. -/
def heedlessProgram : List Command :=
  [.schedule .facade (.after (.clamp 1)) (.numbered 5) (.silent [.cancel .facade (.numbered 3)]),
    .schedule .facade (.after (.clamp 2)) (.numbered 2) (.silent []),
    .cancel .facade (.numbered 1),
    .delayLeft .facade (.numbered 4),
    .run .facade]

/-- What is left after the first of them and a teardown. -/
def haltedWorld : World := (((pristine none).after haltedProgram).call .teardown).2

theorem unused_pristine (environment : Option String) : (pristine environment).Unused :=
  ⟨rfl, rfl, rfl, rfl⟩

theorem call_teardown_haltedProgram :
    ((pristine none).after haltedProgram).call .teardown = (.ok .done, haltedWorld) :=
  Prod.ext rfl rfl

/-- A stale handle may agree with a live one in all but its owner; it is expired all the same. -/
theorem restart_forgets_halted :
    (pristine none).Unused ∧ (∀ c ∈ haltedProgram, c.All Command.Genuine) ∧
      ((pristine none).after haltedProgram).call .teardown = (.ok .done, haltedWorld) ∧
      haltedWorld.registry = (pristine none).registry ∧
      haltedWorld.config = (pristine none).config ∧
      (∀ c ∈ heedlessProgram, c.All Command.OnFacade) ∧
      haltedWorld.handle (.numbered 1) = ⟨some 0, .clamp 1, noContext, 1, .timed⟩ ∧
      (haltedWorld.after (heedlessProgram.take 3)).handle (.numbered 5) =
        ⟨some 1, .clamp 1, noContext, 1, .timed⟩ ∧
      List.Forall₂ (Scene.Matches haltedWorld.engines.length haltedWorld.issued)
        ((pristine none).scenes heedlessProgram) (haltedWorld.scenes heedlessProgram) ∧
      (haltedWorld.after (heedlessProgram.take 3)).isExpired .facade
          (haltedWorld.handle (.numbered 1)) =
        (.ok (.flag true), haltedWorld.after (heedlessProgram.take 3)) := by
  have hP : ∀ c ∈ haltedProgram, c.All Command.Genuine := by
    simp [haltedProgram, Action.silent, Command.All, Action.All, allOf, Command.Genuine]
  have hQ : ∀ c ∈ heedlessProgram, c.All Command.OnFacade := by
    simp [heedlessProgram, Action.silent, Command.All, Action.All, allOf, Command.OnFacade,
      Action.Minds, Action.tag]
  have hregistry : haltedWorld.registry = (pristine none).registry := rfl
  have hconfig : haltedWorld.config = (pristine none).config := rfl
  have hstale : haltedWorld.handle (.numbered 1) = ⟨some 0, .clamp 1, noContext, 1, .timed⟩ := by
    decide +kernel
  have hlive : (haltedWorld.after (heedlessProgram.take 3)).handle (.numbered 5) =
      ⟨some 1, .clamp 1, noContext, 1, .timed⟩ := by
    decide +kernel
  obtain ⟨hscenes, huseless⟩ := restart_forgets (unused_pristine none) hP
    call_teardown_haltedProgram hregistry hconfig hQ
  have hissued : haltedWorld.handle (.numbered 1) ∈ haltedWorld.issued := by
    rcases haltedWorld.keeps_handle (.numbered 1) with hnone | ⟨p, hp, hg⟩
    · rw [hstale] at hnone
      cases hnone
    · exact hg ▸ List.mem_map_of_mem hp
  have hcomes : haltedWorld.Comes heedlessProgram (haltedWorld.after (heedlessProgram.take 3)) :=
    .later (.later (.later (.here _ _)))
  exact ⟨unused_pristine none, hP, call_teardown_haltedProgram, hregistry, hconfig, hQ, hstale,
    hlive, hscenes, (huseless _ hcomes _ hissued).1⟩

end World

end EventSim
