import EventSim.Proofs.Backends.Worlds
import EventSim.Proofs.Restart.Renumbering
import EventSim.Proofs.Translation.Programs

/-!
# A world that starts anew

`World.Resumes` compares a world in which nothing was made yet with one that has a past: `n` kernels
that the facade has no more, and handles that they issued.  All kernels that are made from now on
are the same in both, but for their numbers, and a name under which the first world knows no handle
may stand for a stale one in the second.

**A command through the facade ends alike in both worlds** (`ResumesEnd.perform`), and afterwards
the one still resumes the other.  Through such a world no stale handle does anything
(`Resumes.useless`).  The notes that actions take are compared only where they were the same to
begin with.
-/

namespace EventSim

/-- The command calls the facade or sets the stage for it.  It makes no kernel by hand and hands
none over, it neither looks at handles nor puts any together, and it does not ask for a stamp, which
is up to the printers. -/
def Command.OnFacade : Command → Prop
  | .schedule t _ _ a | .scheduleEach t _ _ a => t = .facade ∧ a.Minds (· = .facade)
  | .chain t .. | .stopAfter t .. | .cancel t _ | .remove t _ | .isExpired t _ | .delayLeft t _
  | .run t | .stop t | .destroy t | .attach t _ | .query t _ => t = .facade
  | .idle | .panic _ | .isPopulated | .attachNamed _ | .teardown | .config _ | .registry _
  | .trace _ => True
  | .printing call => call ≠ .stamp
  | .inspect _ | .same .. | .forge .. | .build .. | .install _ | .scenario _ | .observe _
  | .observations | .capture | .isStored _ | .backendName _ => False

/-- The command is about the notes of actions or the outcome that a scenario takes down. -/
def Command.Notes : Command → Prop
  | .observe _ | .observations | .capture => True
  | _ => False

/-- The command calls the facade or sets the stage for it, or it is about notes where these are
compared. -/
def Command.OnStage (noted : Prop) (c : Command) : Prop := c.OnFacade ∨ noted ∧ c.Notes

/-- The action and all that it carries go through the facade or are about notes. -/
def Action.OnStage (noted : Prop) (a : Action) : Prop :=
  a.Minds (· = .facade) ∧ a.All (Command.OnStage noted)

/-- What a program on the facade puts into a kernel goes through the facade. -/
theorem Command.All.onStage {noted : Prop} {c : Command} {a : Action}
    (h : c.All (Command.OnStage noted)) (hc : c.Carries a) : a.OnStage noted := by
  refine ⟨?_, h.carries hc⟩
  have hself := h.self
  cases c with
  | schedule t timing name b =>
    cases hc
    exact (hself.resolve_right fun h => h.2).2
  | scheduleEach t delays name b =>
    obtain ⟨i, rfl⟩ := hc
    exact Action.minds_numbered i (hself.resolve_right fun h => h.2).2
  | chain t tag delay length name =>
    cases length with
    | zero => exact hc.elim
    | succ left =>
      cases hc
      exact .inr (hself.resolve_right fun h => h.2)
  | _ => exact hc.elim

namespace World

/-- The world `v` has a past of `n` kernels and the handles `stale`, and nothing of it is in the
reach of the facade.  Since then it has been like `w`. -/
structure Resumes (n : Nat) (stale : List Handle) (noted : Prop) (w v : World) : Prop where
  length : v.engines.length = w.engines.length + n
  engine? : ∀ id, v.engine? (id + n) = (w.engine? id).map (Engine.later n)
  slot : v.slot = w.slot.map (· + n)
  /-- No kernel has a name but those of the past. -/
  named : w.named = []
  bygone : ∀ p ∈ v.named, p.2 < n
  registry : v.registry = w.registry
  config : v.config = w.config
  handle : ∀ name, (w.handle name).Matches n stale (v.handle name)
  /-- The notes are the same if they are compared at all. -/
  observed : noted → v.observed = w.observed

variable {n : Nat} {stale : List Handle} {noted : Prop} {w v : World} {id : KernelId}
  {e : Engine Action}

/-- The calls end alike, and the one world still resumes the other. -/
structure ResumesEnd (n : Nat) (stale : List Handle) (noted : Prop)
    (r r' : Except Panic Reply × World) : Prop where
  reply : Answer.Matches n stale r.1 r'.1
  world : r.2.Resumes n stale noted r'.2

/-- What both worlds are asked for cannot be had in either, or it is had alike, and the one world
still resumes the other. -/
inductive ResumesWith {α : Type} (n : Nat) (stale : List Handle) (noted : Prop)
    (R : α → α → Prop) :
    Except Panic (α × World) → Except Panic (α × World) → Prop
  | panicked (p : Panic) : ResumesWith n stale noted R (.error p) (.error p)
  | had {a b : α} {w v : World} :
      R a b → w.Resumes n stale noted v → ResumesWith n stale noted R (.ok (a, w)) (.ok (b, v))

namespace Resumes

variable (h : w.Resumes n stale noted v)

include h

/-! ### Small changes -/

/-- What is told, traced, noted down or printed does not count. -/
theorem told (p p' : Printers) (t t' : Trace) (j j' : List Entry) :
    Resumes n stale noted { w with printers := p, trace := t, journal := j }
      { v with printers := p', trace := t', journal := j' } :=
  ⟨h.length, h.engine?, h.slot, h.named, h.bygone, h.registry, h.config, h.handle,
    h.observed⟩

theorem releaseAll (l l' : List Action) :
    Resumes n stale noted (w.releaseAll l) (v.releaseAll l') := by
  rw [releaseAll_eq, releaseAll_eq]
  exact h.told _ _ _ _ _ _

theorem release (a a' : Action) : Resumes n stale noted (w.release a) (v.release a') :=
  h.releaseAll [a] [a']

theorem log (e e' : Entry) : Resumes n stale noted (w.log e) (v.log e') := h.told _ _ _ _ _ _

theorem traced (timing : Timing) (e e' : Engine Action) :
    Resumes n stale noted (w.traced e timing) (v.traced e' timing) := by
  cases timing with
  | atTeardown => exact h
  | after | immediately | under => exact h.told _ _ _ _ _ _

theorem save (name : HandleName) (g : Handle) :
    Resumes n stale noted (w.save name g) (v.save name (g.later n)) := by
  refine ⟨h.length, h.engine?, h.slot, h.named, h.bygone, h.registry, h.config, fun name' => ?_,
    h.observed⟩
  simp only [World.handle, World.save, List.lookup_cons]
  split
  · exact .issued g
  · exact h.handle name'

theorem write (c : Config) :
    Resumes n stale noted { w with written := some c } { v with written := some c } :=
  ⟨h.length, h.engine?, h.slot, h.named, h.bygone, h.registry, rfl, h.handle, h.observed⟩

theorem enlist (r : Registry) :
    Resumes n stale noted { w with registry := r } { v with registry := r } :=
  ⟨h.length, h.engine?, h.slot, h.named, h.bygone, rfl, h.config, h.handle,
    h.observed⟩

theorem forgetInjected : Resumes n stale noted w.forgetInjected v.forgetInjected where
  length := h.length
  engine? := h.engine?
  slot := h.slot
  named := by
    show w.named.filter _ = []
    rw [h.named]
    rfl
  bygone := fun p hp => h.bygone p (List.mem_of_mem_filter hp)
  registry := h.registry
  config := h.config
  handle := h.handle
  observed := h.observed

/-! ### Kernels -/

theorem setEngine (id : KernelId) (e : Engine Action) :
    Resumes n stale noted (w.setEngine id e) (v.setEngine (id + n) (e.later n)) where
  length := by rw [length_setEngine, length_setEngine, h.length]
  engine? j := by
    have hj := h.engine? j
    simp only [World.engine?] at hj
    simp only [World.engine?, World.setEngine, List.getElem?_set, h.length, hj,
      Nat.add_right_cancel_iff, Nat.add_lt_add_iff_right]
    split
    · split <;> rfl
    · rfl
  slot := h.slot
  named := h.named
  bygone := h.bygone
  registry := h.registry
  config := h.config
  handle := h.handle
  observed := h.observed

theorem setSlot (s : Option KernelId) :
    Resumes n stale noted { w with slot := s } { v with slot := s.map (· + n) } :=
  ⟨h.length, h.engine?, rfl, h.named, h.bygone, h.registry, h.config, h.handle,
    h.observed⟩

/-- The next kernel has the next number in both. -/
theorem make (spec : KernelSpec) :
    (v.make spec).1 = (w.make spec).1 + n ∧
      Resumes n stale noted (w.make spec).2 (v.make spec).2 := by
  have hmade {w v : World} (h : w.Resumes n stale noted v) : Resumes n stale noted
      { w with engines := w.engines ++ [Engine.make w.engines.length spec] }
      { v with engines := v.engines ++ [Engine.make v.engines.length spec] } := by
    refine ⟨?_, fun id => ?_, h.slot, h.named, h.bygone, h.registry, h.config, h.handle,
    h.observed⟩
    · simp only [List.length_append, h.length, List.length_cons, List.length_nil]
      omega
    · show (v.engines ++ [_])[id + n]? = ((w.engines ++ [_])[id]?).map _
      rw [List.getElem?_append, List.getElem?_append, h.length, Engine.make_later,
        Nat.add_sub_add_right]
      simp only [Nat.add_lt_add_iff_right]
      split
      · exact h.engine? id
      · cases id - w.engines.length <;> rfl
  cases spec with
  | watched s => exact ⟨h.length, hmade (h.log _ _)⟩
  | builtIn s => exact ⟨h.length, hmade h⟩
  | fixed now context s => exact ⟨h.length, hmade h⟩

theorem attach (id : KernelId) (b : Backend) :
    Resumes n stale noted (w.attach id b) (v.attach (id + n) b) := by
  unfold World.attach
  rw [h.engine?]
  cases w.engine? id with
  | none => exact h
  | some e =>
    simp only [Option.map_some, Engine.isWatched_later]
    rw [Engine.onKernel_later (f := fun k => k.attach b) fun _ => rfl]
    split
    · exact setEngine (h.log _ _) id _
    · exact h.setEngine id _

/-- A kernel that has lost its place has no name, so it goes. -/
theorem abandon (id : KernelId) : Resumes n stale noted (w.abandon id) (v.abandon (id + n)) := by
  have hw : w.isNamed id = false := by rw [isNamed, h.named, List.any_nil]
  have hv : v.isNamed (id + n) = false := by
    refine List.any_eq_false.2 fun p hp he => ?_
    have hlt := h.bygone p hp
    rw [beq_iff_eq.1 he] at hlt
    exact absurd hlt (Nat.not_lt.2 (Nat.le_add_left n id))
  unfold World.abandon
  rw [hw, hv, if_neg Bool.false_ne_true, if_neg Bool.false_ne_true, h.engine?]
  cases he : w.engine? id with
  | none => exact h
  | some e =>
    have hr := h.releaseAll e.held e.held
    have hwe : (w.releaseAll e.held).engine? id = some e := by
      rw [World.engine?, (aside_releaseAll w e.held).engines]
      exact he
    have hve := hr.engine? id
    rw [hwe] at hve
    simp only [Option.map_some, Engine.held_later]
    rw [mapEngine_of_engine? hwe, mapEngine_of_engine? hve,
      Engine.onKernel_later (f := Kernel.emptied) fun _ => rfl]
    exact hr.setEngine id _

/-! ### The facade -/

/-- What does not depend on its number is the same of the later kernel. -/
theorem asked {β : Type} {f : Engine Action → β} (hf : ∀ e, f (e.later n) = f e) (d : β)
    (id : KernelId) : ((v.engine? (id + n)).map f).getD d = ((w.engine? id).map f).getD d := by
  rw [h.engine?]
  cases w.engine? id with
  | none => rfl
  | some e => exact hf e

theorem occupy (id : KernelId) (b : Backend) :
    Resumes n stale noted (w.occupy id b) (v.occupy (id + n) b) :=
  told (attach (h.setSlot (some id)) id b) _ _ _ _ _ _

theorem construct : ResumesWith n stale noted (fun i j => j = i + n) w.construct v.construct := by
  unfold World.construct
  rw [h.config, h.registry]
  split
  · exact .panicked _
  · split
    · exact .panicked _
    · rename_i spec _
      split
      · exact .panicked _
      · obtain ⟨hid, hm⟩ := h.make spec
        dsimp only
        rw [hid]
        exact .had rfl (hm.occupy _ _)

theorem reach :
    ResumesWith n stale noted (fun i j => j = i + n) (w.reach .facade) (v.reach .facade) := by
  show ResumesWith n stale noted _ w.resolve v.resolve
  unfold World.resolve
  rw [h.slot]
  cases w.slot with
  | none => exact h.construct
  | some id => exact .had rfl h

theorem nowOf : ResumesWith n stale noted Eq (w.nowOf .facade) (v.nowOf .facade) := by
  have hr := h.reach
  unfold World.nowOf
  generalize w.reach .facade = r at hr
  generalize v.reach .facade = r' at hr
  cases hr with
  | panicked p => exact .panicked p
  | @had id _ w' v' hid hm =>
    subst hid
    exact .had (hm.asked (fun _ => Engine.now_later) _ id).symm hm

theorem contextOf : ResumesWith n stale noted Eq (w.contextOf .facade) (v.contextOf .facade) := by
  have hr := h.reach
  unfold World.contextOf
  generalize w.reach .facade = r at hr
  generalize v.reach .facade = r' at hr
  cases hr with
  | panicked p => exact .panicked p
  | @had id _ w' v' hid hm =>
    subst hid
    exact .had (hm.asked (fun _ => Engine.context_later) _ id).symm hm

/-- **Through the facade, a stale handle is expired, and nothing is withdrawn by it.** -/
theorem useless {g : Handle} (hg : ∀ id, g.owner = some id → id < n) :
    v.isExpired .facade g = (.ok (.flag true), v) ∧ v.cancel .facade g = (.ok .done, v) ∧
      v.remove .facade g = (.ok .done, v) := by
  simp only [World.isExpired, World.cancel, World.remove, onFound, World.find, h.slot]
  cases hs : w.slot with
  | none => exact ⟨rfl, rfl, rfl⟩
  | some id =>
    have hv := h.engine? id
    simp only [Option.map_some]
    cases he : w.engine? id with
    | none =>
      rw [he] at hv
      simp only [hv]
      exact ⟨rfl, rfl, rfl⟩
    | some e =>
      rw [he] at hv
      obtain ⟨hx, hc, hr⟩ := Engine.useless_later (e := e) hg
      simp only [hv, Option.map_some, hx, hc, hr, setEngine_of_engine? hv]
      exact ⟨trivial, rfl, rfl⟩

end Resumes

/-! ### Calls -/

variable {f g : KernelId → Engine Action → World → Except Panic Reply × World}
  {f' g' : KernelId → Engine Action → Except Panic Reply × World}

theorem ResumesEnd.replied (h : w.Resumes n stale noted v) {r r' : Reply}
    (hr : r.Matches n stale r') : ResumesEnd n stale noted (.ok r, w) (.ok r', v) :=
  ⟨.replied hr, h⟩

theorem ResumesEnd.same (h : w.Resumes n stale noted v) (r : Reply) :
    ResumesEnd n stale noted (.ok r, w) (.ok (r.later n), v) := ⟨.same r, h⟩

theorem ResumesEnd.panicked (h : w.Resumes n stale noted v) (p : Panic) :
    ResumesEnd n stale noted (.error p, w) (.error p, v) := ⟨.panicked p, h⟩

theorem ResumesEnd.onReached (h : w.Resumes n stale noted v)
    (hf : ∀ id e w v, w.Resumes n stale noted v →
      ResumesEnd n stale noted (f id e w) (g (id + n) (e.later n) v)) :
    ResumesEnd n stale noted (w.onReached .facade f) (v.onReached .facade g) := by
  have hr := h.reach
  unfold World.onReached
  generalize w.reach .facade = r at hr
  generalize v.reach .facade = r' at hr
  cases hr with
  | panicked p => exact .panicked h p
  | @had id _ w' v' hid hm =>
    subst hid
    dsimp only
    rw [hm.engine?]
    cases w'.engine? id with
    | none => exact .same hm .done
    | some e => exact hf id e w' v' hm

theorem ResumesEnd.onFound (h : w.Resumes n stale noted v) {without : Reply}
    (hwithout : without.Matches n stale without)
    (hf : ∀ id e, ResumesEnd n stale noted (f' id e) (g' (id + n) (e.later n))) :
    ResumesEnd n stale noted (w.onFound .facade without f') (v.onFound .facade without g') := by
  simp only [World.onFound, World.find, h.slot]
  cases w.slot with
  | none => exact .replied h hwithout
  | some id =>
    simp only [Option.map_some, h.engine?]
    cases w.engine? id with
    | none => exact .replied h hwithout
    | some e => exact hf id e

/-- Scheduling has the same end but for the number of the kernel. -/
theorem Resumes.schedule (h : w.Resumes n stale noted v) (timing : Timing) (name : HandleName)
    (a : Action) :
    (v.schedule .facade timing name a).1 =
        (w.schedule .facade timing name a).1.map (Reply.later n) ∧
      Resumes n stale noted (w.schedule .facade timing name a).2
        (v.schedule .facade timing name a).2 := by
  have hr := h.reach
  unfold World.schedule
  generalize w.reach .facade = r at hr
  generalize v.reach .facade = r' at hr
  cases hr with
  | panicked p => exact ⟨rfl, h.release a a⟩
  | @had id _ w' v' hid hm =>
    subst hid
    dsimp only
    rw [hm.engine?]
    cases w'.engine? id with
    | none => exact ⟨rfl, hm⟩
    | some e =>
      have ht := hm.traced timing e (e.later n)
      simp only [Option.map_some, if_true, Engine.schedule_later]
      have hs := (ht.setEngine id (e.schedule timing a).2.2).releaseAll
        (e.schedule timing a).2.1 (e.schedule timing a).2.1
      cases (e.schedule timing a).1 with
      | error error => exact ⟨rfl, hs⟩
      | ok g => exact ⟨rfl, hs.save name g⟩

theorem Resumes.scheduleEach (name : Option HandleName) (a : Action) (delays : List Time)
    (i : Nat) (h : w.Resumes n stale noted v) :
    (v.scheduleEach .facade name a i delays).1 =
        (w.scheduleEach .facade name a i delays).1.map (laterAll n) ∧
      Resumes n stale noted (w.scheduleEach .facade name a i delays).2
        (v.scheduleEach .facade name a i delays).2 := by
  induction delays generalizing w v i with
  | nil => exact ⟨rfl, h⟩
  | cons delay rest ih =>
    have hs := h.schedule (.after delay) (name.getD (.word ((a.numbered i).tag.getD "")))
      (a.numbered i)
    unfold World.scheduleEach
    dsimp only
    generalize w.schedule .facade _ _ _ = r at hs
    generalize v.schedule .facade _ _ _ = r' at hs
    obtain ⟨reply, w'⟩ := r
    obtain ⟨reply', v'⟩ := r'
    obtain ⟨hr, hm⟩ := hs
    dsimp only at hr hm
    subst hr
    cases reply with
    | error p => exact ⟨rfl, hm⟩
    | ok reply =>
      have hrest := ih (i + 1) hm
      dsimp only [Except.map]
      generalize w'.scheduleEach .facade name a (i + 1) rest = r at hrest
      generalize v'.scheduleEach .facade name a (i + 1) rest = r' at hrest
      obtain ⟨replies, w''⟩ := r
      obtain ⟨replies', v''⟩ := r'
      obtain ⟨hr, hm'⟩ := hrest
      dsimp only at hr hm'
      subst hr
      cases replies with
      | error p => exact ⟨rfl, hm'⟩
      | ok replies => exact ⟨rfl, hm'⟩

theorem ResumesEnd.schedule (h : w.Resumes n stale noted v) (timing : Timing) (name : HandleName)
    (a : Action) :
    ResumesEnd n stale noted (w.schedule .facade timing name a)
      (v.schedule .facade timing name a) := by
  obtain ⟨hr, hm⟩ := h.schedule timing name a
  refine ⟨?_, hm⟩
  rw [hr]
  cases (w.schedule .facade timing name a).1 with
  | error p => exact .panicked p
  | ok r => exact .same r

theorem ResumesEnd.stopAfter (h : w.Resumes n stale noted v) (delay : Time) (name : HandleName) :
    ResumesEnd n stale noted (w.stopAfter .facade delay name) (v.stopAfter .facade delay name) := by
  refine .onReached h fun id e w v h => ?_
  simp only [Engine.stopAfter_later]
  have hs := h.setEngine id (e.stopAfter delay).2
  generalize e.stopAfter delay = r at hs
  obtain ⟨reply, e'⟩ := r
  cases reply with
  | error error => exact .same hs (.refused error)
  | ok g => exact .same (hs.save name g) (.handle g)

theorem ResumesEnd.remove (h : w.Resumes n stale noted v) {a b : Handle} (m : a.Matches n stale b) :
    ResumesEnd n stale noted (w.remove .facade a) (v.remove .facade b) := by
  refine .onFound h (.same .done) fun id e => ?_
  simp only [Engine.remove_later m]
  exact .same ((h.setEngine id _).releaseAll _ _) .done

theorem ResumesEnd.cancel (h : w.Resumes n stale noted v) {a b : Handle} (m : a.Matches n stale b) :
    ResumesEnd n stale noted (w.cancel .facade a) (v.cancel .facade b) := by
  refine .onFound h (.same .done) fun id e => ?_
  simp only [Engine.cancel_later m]
  exact .same ((h.setEngine id _).releaseAll _ _) .done

theorem ResumesEnd.isExpired (h : w.Resumes n stale noted v) {a b : Handle}
    (m : a.Matches n stale b) :
    ResumesEnd n stale noted (w.isExpired .facade a) (v.isExpired .facade b) := by
  refine .onFound h (.same (.flag true)) fun id e => ?_
  rw [Engine.isExpired_later m]
  exact .same h (.flag _)

theorem ResumesEnd.delayLeft (h : w.Resumes n stale noted v) {a b : Handle}
    (m : a.Matches n stale b) :
    ResumesEnd n stale noted (w.delayLeft .facade a) (v.delayLeft .facade b) := by
  refine .onReached h fun id e w v h => ?_
  rcases Engine.delayLeft_later (e := e) m with heq | ⟨ha, hb⟩
  · rw [heq]
    cases e.delayLeft a with
    | error p => exact .panicked h p
    | ok r =>
      cases r with
      | error error => exact .same h (.refused error)
      | ok left => exact .same h (.time left)
  · rw [ha, hb]
    exact .replied h (.expired m)

theorem ResumesEnd.ask (h : w.Resumes n stale noted v) (q : Query) :
    ResumesEnd n stale noted (w.ask .facade q) (v.ask .facade q) := by
  have hanswer : ∀ q, ResumesEnd n stale noted
      (w.onReached .facade fun _ e w => (.ok (answer e q), w))
      (v.onReached .facade fun _ e v => (.ok (answer e q), v)) := by
    refine fun q => .onReached h fun id e w v h => ?_
    rw [answer_later]
    exact .same h _
  cases q with
  | systemId =>
    refine .onFound h (.same (.systemId 0)) fun id e => ?_
    rw [Engine.systemId_later]
    exact .same h (.systemId _)
  | _ => exact hanswer _

/-! ### Setting the stage -/

theorem ResumesEnd.write (h : w.Resumes n stale noted v) (c : Config) :
    ResumesEnd n stale noted (w.write c) (v.write c) := by
  unfold World.write
  rw [h.config]
  split
  · exact .panicked h _
  · exact .same (h.write c) .done

theorem ResumesEnd.apply (h : w.Resumes n stale noted v) (c : Config) :
    ResumesEnd n stale noted (w.apply c) (v.apply c) := by
  unfold World.apply
  rw [h.registry]
  split
  · exact .same h (.refused _)
  · exact .write h c

theorem ResumesEnd.onConfig (h : w.Resumes n stale noted v)
    {f g : Config → Except Panic Reply × World} (hf : ∀ c, ResumesEnd n stale noted (f c) (g c)) :
    ResumesEnd n stale noted (w.onConfig f) (v.onConfig g) := by
  unfold World.onConfig
  rw [h.config]
  split
  · exact .panicked h _
  · exact hf _

theorem ResumesEnd.load (h : w.Resumes n stale noted v) (content : FileContent) :
    ResumesEnd n stale noted (w.load content) (v.load content) := by
  cases content with
  | text s =>
    unfold World.load
    dsimp only
    split
    · exact .same h (.invalid _)
    · rename_i c _
      unfold World.apply
      rw [h.registry]
      cases w.registry.validate c with
      | error e => exact .same h (.invalid e)
      | ok _ =>
        unfold World.write
        rw [h.config]
        cases w.config with
        | error p => exact .panicked h p
        | ok _ => exact .same (h.write c) (.config c)
  | _ => exact .same h (.unreadable _)

theorem Resumes.select (h : w.Resumes n stale noted v) (name : Option String) :
    v.select name = w.select name := by
  unfold World.select
  rw [h.config, h.registry]

theorem ResumesEnd.configure (h : w.Resumes n stale noted v) (call : ConfigCall) :
    ResumesEnd n stale noted (w.configure call) (v.configure call) := by
  cases call with
  | get => exact .onConfig h fun c => .same h (.config c)
  | chooseKernel name =>
    simp only [World.configure, World.chooseKernel, h.registry]
    split
    · exact .same h (.refused _)
    · exact .onConfig h fun c => .write h _
  | chooseScheduler name =>
    simp only [World.configure, World.chooseScheduler, h.registry]
    split
    · exact .same h (.refused _)
    · exact .onConfig h fun c => .write h _
  | assign text =>
    refine .onConfig h fun c => ?_
    split
    · exact .same h (.refused _)
    · exact .apply h _
  | applyJson text =>
    simp only [World.configure]
    split
    · exact .same h (.refused _)
    · exact .apply h _
  | reset => exact .write h _
  | load content => exact .load h content
  | select name =>
    simp only [World.configure, h.select]
    split
    · exact .panicked h _
    · exact .same h (.refused _)
    · exact .same h (.names _)

theorem ResumesEnd.enroll (h : w.Resumes n stale noted v) (call : RegistryCall) :
    ResumesEnd n stale noted (w.enroll call) (v.enroll call) := by
  cases call with
  | kernelNames =>
    simp only [World.enroll, h.registry]
    exact .same h (.names _)
  | schedulerNames =>
    simp only [World.enroll, h.registry]
    exact .same h (.names _)
  | lookupKernel name =>
    simp only [World.enroll, h.registry]
    split
    · exact .same h (.refused _)
    · rename_i spec _
      obtain ⟨hid, hm⟩ := h.make spec
      have hs : (((v.make spec).2.engine? (v.make spec).1).map Engine.systemId).getD 0 =
          (((w.make spec).2.engine? (w.make spec).1).map Engine.systemId).getD 0 := by
        rw [hid]
        exact hm.asked (fun _ => Engine.systemId_later) 0 _
      rw [hs]
      exact .same hm (.systemId _)
  | lookupScheduler name =>
    simp only [World.enroll, h.registry]
    split
    · exact .same h (.refused _)
    · exact .same h (.name _)
  | registerKernel name spec =>
    simp only [World.enroll, h.registry]
    exact .same (h.enlist _) (.flag _)
  | registerScheduler name b =>
    simp only [World.enroll, h.registry]
    exact .same (h.enlist _) (.flag _)

theorem ResumesEnd.print (h : w.Resumes n stale noted v) {call : PrinterCall} (hc : call ≠ .stamp) :
    ResumesEnd n stale noted (w.print call) (v.print call) := by
  cases call with
  | install part printer =>
    cases part with
    | time => exact .same (h.told _ _ _ _ _ _) .done
    | node => exact .same (h.told _ _ _ _ _ _) .done
  | installed => exact .replied h (.installed _ _ _ _)
  | stamp => exact absurd rfl hc
  | print part =>
    cases part with
    | time =>
      have hn := h.nowOf
      simp only [World.print, World.printPart]
      generalize w.nowOf .facade = r at hn
      generalize v.nowOf .facade = r' at hn
      cases hn with
      | panicked p => exact .panicked h p
      | @had now _ w' v' hnow hm =>
        subst hnow
        exact .same hm (.text _)
    | node =>
      have hn := h.contextOf
      simp only [World.print, World.printPart]
      generalize w.contextOf .facade = r at hn
      generalize v.contextOf .facade = r' at hn
      cases hn with
      | panicked p => exact .panicked h p
      | @had context _ w' v' hcontext hm =>
        subst hcontext
        exact .same hm (.text _)

theorem ResumesEnd.attach (h : w.Resumes n stale noted v) (b : Backend) :
    ResumesEnd n stale noted (w.onReached .facade fun id _ w => (.ok .done, w.attach id b))
      (v.onReached .facade fun id _ v => (.ok .done, v.attach id b)) :=
  .onReached h fun id _ _ _ h => .same (h.attach id b) .done

/-! ### Notes -/

theorem Resumes.noteDown (h : w.Resumes n stale noted v) (o : Observation) :
    Resumes n stale noted { w with observed := o :: w.observed }
      { v with observed := o :: v.observed } :=
  ⟨h.length, h.engine?, h.slot, h.named, h.bygone, h.registry, h.config, h.handle,
    fun hn => congrArg (o :: ·) (h.observed hn)⟩

theorem ResumesEnd.note (h : w.Resumes n stale noted v) (s : Sighting) :
    ResumesEnd n stale noted (w.note s) (v.note s) := by
  cases s with
  | number | label => exact .same (h.noteDown _) .done
  | now | nowAnd =>
    have hn := h.nowOf
    simp only [World.note]
    generalize w.nowOf .facade = r at hn
    generalize v.nowOf .facade = r' at hn
    cases hn with
    | panicked p => exact .panicked h p
    | had hnow hm =>
      subst hnow
      exact .same (hm.noteDown _) .done
  | context =>
    have hn := h.contextOf
    simp only [World.note]
    generalize w.contextOf .facade = r at hn
    generalize v.contextOf .facade = r' at hn
    cases hn with
    | panicked p => exact .panicked h p
    | had hcontext hm =>
      subst hcontext
      exact .same (hm.noteDown _) .done

theorem ResumesEnd.capture (h : w.Resumes n stale noted v) :
    ResumesEnd n stale noted
      (w.onReached .facade fun _ e w => (.ok (.captured e.executed e.now), w))
      (v.onReached .facade fun _ e v => (.ok (.captured e.executed e.now), v)) := by
  refine .onReached h fun id e w v h => ?_
  rw [Engine.executed_later, Engine.now_later]
  exact .same h _

/-! ### Commands -/

/-- **A command through the facade ends alike.** -/
theorem ResumesEnd.perform (h : w.Resumes n stale noted v) {c : Command}
    (hc : c.OnStage noted) : ResumesEnd n stale noted (w.perform c) (v.perform c) := by
  rcases hc with hc | ⟨hnoted, hc⟩
  case inr =>
    cases c with
    | observe s => exact .note h s
    | observations =>
      simp only [World.perform, h.observed hnoted]
      exact .same h (.observations _)
    | capture => exact .capture h
    | _ => exact hc.elim
  cases c with
  | schedule t timing name a =>
    obtain ⟨rfl, -⟩ := hc
    exact .schedule h timing name a
  | scheduleEach t delays name a =>
    obtain ⟨rfl, -⟩ := hc
    obtain ⟨hr, hm⟩ := h.scheduleEach name a delays 0
    simp only [World.perform]
    generalize w.scheduleEach .facade name a 0 delays = r at hr hm
    generalize v.scheduleEach .facade name a 0 delays = r' at hr hm
    obtain ⟨replies, w'⟩ := r
    obtain ⟨replies', v'⟩ := r'
    dsimp only at hr hm
    subst hr
    cases replies with
    | error p => exact .panicked hm p
    | ok replies => exact .same hm (.many replies)
  | chain t tag delay length name =>
    obtain rfl : t = .facade := hc
    cases length with
    | zero => exact .same h .done
    | succ left => exact .schedule h (.after delay) name _
  | stopAfter t delay name =>
    obtain rfl : t = .facade := hc
    exact .stopAfter h delay name
  | cancel t name =>
    obtain rfl : t = .facade := hc
    exact .cancel h (h.handle name)
  | remove t name =>
    obtain rfl : t = .facade := hc
    exact .remove h (h.handle name)
  | isExpired t name =>
    obtain rfl : t = .facade := hc
    exact .isExpired h (h.handle name)
  | delayLeft t name =>
    obtain rfl : t = .facade := hc
    exact .delayLeft h (h.handle name)
  | stop t =>
    obtain rfl : t = .facade := hc
    refine .onReached h fun id e w v h => ?_
    rw [Engine.onKernel_later (f := Kernel.stop) fun _ => rfl]
    exact .same (h.setEngine id _) .done
  | attach t b =>
    obtain rfl : t = .facade := hc
    exact .attach h b
  | query t q =>
    obtain rfl : t = .facade := hc
    exact .ask h q
  | isPopulated =>
    have hs : v.slot.isSome = w.slot.isSome := by rw [h.slot, Option.isSome_map]
    simp only [World.perform, hs]
    exact .same h (.flag _)
  | attachNamed name =>
    simp only [World.perform, h.registry]
    split
    · exact .same h (.refused _)
    · exact .attach h _
  | config call => exact .configure h call
  | registry call => exact .enroll h call
  | printing call => exact .print h hc
  | trace call =>
    cases call with
    | start name => exact .same (h.told _ _ _ _ _ _) .done
    | clear => exact .same (h.told _ _ _ _ _ _) .done
    | report => exact .replied h (.report _ _)
  | panic message => exact .panicked h _
  | idle | run | destroy | teardown => exact .same h .done
  | inspect | same | forge | build | install | scenario | observe | observations | capture
  | isStored | backendName => exact hc.elim

end World

end EventSim
