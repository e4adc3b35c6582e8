import EventSim.Proofs.Machine.Programs
import EventSim.Proofs.World.Requests

/-!
# Where kernels are

A kernel is known by the slot of the facade, by a name, or by a frame of the stack.  `World.Grows`
says that between two worlds no kernel was lost and that whatever kernel has come into the slot or
got a name was made in between.  **Every command that runs nothing is of this kind**
(`grows_perform`), unless it hands a named kernel to the facade.

So every kernel that is known was made: `World.Housed`, `Housed.perform`.
-/

namespace EventSim

namespace World

variable {w w' w'' v : World} {id : KernelId} {t : Target}

/-- The number of kernels, and where kernels are known. -/
def places (w : World) : Nat × Option KernelId × List (KernelName × KernelId) :=
  (w.engines.length, w.slot, w.named)

/-- A kernel that was made between two worlds. -/
def Between (w w' : World) (id : KernelId) : Prop :=
  w.engines.length ≤ id ∧ id < w'.engines.length

theorem slot_of_places (h : w'.places = w.places) : w'.slot = w.slot :=
  (Prod.mk.inj (Prod.mk.inj h).2).1

/-- No kernel was lost, and whatever kernel has come into a place was made in between. -/
structure Grows (w w' : World) : Prop where
  length : w.engines.length ≤ w'.engines.length
  slot : ∀ {id}, w'.slot = some id → w.slot = some id ∨ w.Between w' id
  named : ∀ {p}, p ∈ w'.named → p ∈ w.named ∨ w.Between w' p.2

theorem Grows.of_places (h : w'.places = w.places) : w.Grows w' := by
  obtain ⟨hl, hp⟩ := Prod.mk.inj h
  obtain ⟨hs, hn⟩ := Prod.mk.inj hp
  exact ⟨Nat.le_of_eq hl.symm, fun h => .inl (hs ▸ h), fun h => .inl (hn ▸ h)⟩

theorem Grows.refl (w : World) : w.Grows w := .of_places rfl

theorem Between.mono_left (h : w'.Between w'' id) (hl : w.engines.length ≤ w'.engines.length) :
    w.Between w'' id := ⟨Nat.le_trans hl h.1, h.2⟩

theorem Between.mono_right (h : w.Between w' id) (hl : w'.engines.length ≤ w''.engines.length) :
    w.Between w'' id := ⟨h.1, Nat.lt_of_lt_of_le h.2 hl⟩

theorem Grows.trans (h : w.Grows w') (g : w'.Grows w'') : w.Grows w'' where
  length := Nat.le_trans h.length g.length
  slot hs := by
    rcases g.slot hs with hs | hb
    · exact (h.slot hs).imp_right fun hb => hb.mono_right g.length
    · exact .inr (hb.mono_left h.length)
  named hp := by
    rcases g.named hp with hp | hb
    · exact (h.named hp).imp_right fun hb => hb.mono_right g.length
    · exact .inr (hb.mono_left h.length)

/-! ### Changes that leave kernels where they are -/

@[simp] theorem places_log (w : World) (e : Entry) : (w.log e).places = w.places := rfl

@[simp] theorem places_releaseAll (w : World) (l : List Action) :
    (w.releaseAll l).places = w.places := by
  induction l generalizing w with
  | nil => rfl
  | cons a l ih =>
    refine (ih (w.release a)).trans ?_
    unfold release
    split <;> rfl

@[simp] theorem places_setEngine (w : World) (id : KernelId) (e : Engine Action) :
    (w.setEngine id e).places = w.places := by
  rw [places, length_setEngine]
  rfl

@[simp] theorem places_save (w : World) (name : HandleName) (h : Handle) :
    (w.save name h).places = w.places := rfl

@[simp] theorem places_attach (w : World) (id : KernelId) (b : Backend) :
    (w.attach id b).places = w.places := by
  unfold attach
  split
  · rfl
  · dsimp only
    split <;> exact places_setEngine _ id _

@[simp] theorem places_abandon (w : World) (id : KernelId) : (w.abandon id).places = w.places := by
  unfold abandon
  split
  · rfl
  · split
    · rfl
    · rename_i e _
      refine Eq.trans ?_ (places_releaseAll w e.held)
      simp only [mapEngine, places, List.length_modify]

theorem places_write (w : World) (c : Config) : (w.write c).2.places = w.places := by
  unfold write
  split <;> rfl

theorem places_apply (w : World) (c : Config) : (w.apply c).2.places = w.places := by
  unfold World.apply
  split
  · rfl
  · exact places_write w c

theorem places_onConfig {f : Config → Except Panic Reply × World}
    (hf : ∀ c, (f c).2.places = w.places) : (w.onConfig f).2.places = w.places := by
  unfold onConfig
  split
  · rfl
  · exact hf _

theorem places_chooseScheduler (w : World) (name : String) :
    (w.chooseScheduler name).2.places = w.places := by
  unfold chooseScheduler
  split
  · rfl
  · exact places_onConfig fun c => places_write w _

theorem places_configure (w : World) (call : ConfigCall) :
    (w.configure call).2.places = w.places := by
  cases call with
  | get => exact places_onConfig fun c => rfl
  | chooseKernel name =>
    rw [configure, chooseKernel]
    split
    · rfl
    · exact places_onConfig fun c => places_write w _
  | chooseScheduler name => exact places_chooseScheduler w name
  | assign text =>
    refine places_onConfig fun c => ?_
    split
    · rfl
    · exact places_apply w _
  | applyJson text =>
    rw [configure]
    split
    · rfl
    · exact places_apply w _
  | reset => exact places_write w _
  | load content =>
    rw [configure]
    unfold load
    split
    · split
      · rfl
      · rename_i c _
        have h := places_apply w c
        split <;> rename_i ha <;> rwa [ha] at h
    · rfl
  | select name =>
    rw [configure]
    split <;> rfl

/-! ### Kernels that are made -/

theorem length_make (w : World) (spec : KernelSpec) :
    (w.make spec).1 = w.engines.length ∧
      (w.make spec).2.engines.length = w.engines.length + 1 := by
  cases spec <;> exact ⟨rfl, List.length_append⟩

theorem named_make (w : World) (spec : KernelSpec) : (w.make spec).2.named = w.named := by
  cases spec <;> rfl

theorem between_make (w : World) (spec : KernelSpec) :
    w.Between (w.make spec).2 (w.make spec).1 := by
  obtain ⟨hid, hl⟩ := length_make w spec
  rw [Between, hid, hl]
  exact ⟨Nat.le_refl _, Nat.lt_succ_self _⟩

theorem grows_make (w : World) (spec : KernelSpec) : w.Grows (w.make spec).2 where
  length := by
    rw [(length_make w spec).2]
    exact Nat.le_succ _
  slot hs := .inl (slot_make w spec ▸ hs)
  named hp := .inl (named_make w spec ▸ hp)

theorem grows_build (w : World) (name : Option KernelName) (spec : KernelSpec) :
    w.Grows (w.build name spec).2 where
  length := (grows_make w spec).length
  slot hs := (grows_make w spec).slot hs
  named hp := by
    rcases List.mem_cons.1 hp with rfl | hp
    · exact .inr (between_make w spec)
    · exact (grows_make w spec).named (List.mem_of_mem_filter hp)

theorem places_occupy (w : World) (id : KernelId) (b : Backend) :
    (w.occupy id b).places = (w.engines.length, some id, w.named) :=
  places_attach { w with slot := some id } id b

/-- A kernel that was just made comes into the slot. -/
theorem grows_occupy (h : w.Grows v) (hb : w.Between v id) (b : Backend) :
    w.Grows (v.occupy id b) := by
  obtain ⟨hl, hp⟩ := Prod.mk.inj (places_occupy v id b)
  obtain ⟨hs, hn⟩ := Prod.mk.inj hp
  constructor
  case length => exact hl ▸ h.length
  case slot =>
    intro j hj
    cases hs.symm.trans hj
    exact .inr (hb.mono_right (Nat.le_of_eq hl.symm))
  case named =>
    intro p hp
    exact (h.named (hn ▸ hp)).imp_right fun hb => hb.mono_right (Nat.le_of_eq hl.symm)

/-! ### Resolution -/

/-- Whoever has got a kernel has got one that was made. -/
theorem grows_construct (h : w.construct = .ok (id, v)) : w.Grows v ∧ w.Between v id := by
  unfold construct at h
  split at h
  · cases h
  · split at h
    · cases h
    · rename_i spec _
      split at h
      · cases h
      · rename_i b _
        cases h
        have hg := grows_make w spec
        have hb := between_make w spec
        have hl := (Prod.mk.inj (places_occupy (w.make spec).2 (w.make spec).1 b)).1
        exact ⟨grows_occupy hg hb b, hb.mono_right (Nat.le_of_eq hl.symm)⟩

theorem grows_reach (h : w.reach t = .ok (id, v)) : w.Grows v := by
  unfold reach resolve at h
  split at h
  · split at h
    · cases h
      exact .refl _
    · exact (grows_construct h).1
  · split at h <;> cases h
    exact .refl _

theorem grows_nowOf {now : Time} (h : w.nowOf t = .ok (now, v)) : w.Grows v := by
  unfold nowOf at h
  split at h <;> cases h
  exact grows_reach ‹_›

theorem grows_contextOf {context : Context} (h : w.contextOf t = .ok (context, v)) : w.Grows v := by
  unfold contextOf at h
  split at h <;> cases h
  exact grows_reach ‹_›

theorem grows_onReached {f : KernelId → Engine Action → World → Except Panic Reply × World}
    (hf : ∀ id e v, (f id e v).2.places = v.places) : w.Grows (w.onReached t f).2 := by
  unfold onReached
  split
  · exact .refl w
  · have hr := grows_reach ‹_›
    split
    · exact hr
    · exact hr.trans (.of_places (hf _ _ _))

theorem places_onFound {without : Reply}
    {f : KernelId → Engine Action → Except Panic Reply × World}
    (hf : ∀ id e, (f id e).2.places = w.places) : (w.onFound t without f).2.places = w.places := by
  unfold onFound
  split
  · rfl
  · rfl
  · split
    · rfl
    · exact hf _ _

/-! ### Commands -/

theorem grows_schedule (w : World) (t : Target) (timing : Timing) (name : HandleName) (a : Action) :
    w.Grows (w.schedule t timing name a).2 := by
  unfold schedule
  split
  · exact .of_places (places_releaseAll w [a])
  · rename_i id v hr
    refine (grows_reach hr).trans ?_
    split
    · exact .refl v
    · rename_i e _
      obtain ⟨trace, htrace⟩ := exists_trace v t e timing
      rw [htrace]
      dsimp only
      have hplaces (e' : Engine Action) (dropped : List Action) :
          (({ v with trace := trace }.setEngine id e').releaseAll dropped).places = v.places :=
        (places_releaseAll _ dropped).trans (places_setEngine { v with trace := trace } id e')
      split
      · exact .of_places (hplaces _ _)
      · exact .of_places (hplaces _ _)

theorem grows_scheduleEach (t : Target) (name : Option HandleName) (a : Action)
    (delays : List Time) (w : World) (i : Nat) :
    w.Grows (w.scheduleEach t name a i delays).2 := by
  induction delays generalizing w i with
  | nil => exact .refl w
  | cons delay rest ih =>
    have hs := w.grows_schedule t (.after delay)
      (name.getD (.word ((a.numbered i).tag.getD ""))) (a.numbered i)
    unfold scheduleEach
    dsimp only
    split <;> rename_i heq <;> rw [heq] at hs
    · exact hs
    · have hv := hs.trans (ih _ (i + 1))
      split <;> rename_i hr <;> rwa [hr] at hv

theorem grows_printPart {part : StampPart} {printer : Printer} {text : Option String}
    (h : w.printPart part printer = .ok (text, v)) : w.Grows v := by
  unfold printPart at h
  split at h
  · split at h <;> split at h <;> cases h
    · exact grows_nowOf ‹_›
    · exact grows_contextOf ‹_›
  · split at h <;> cases h <;> exact .refl _
  · cases h
    exact .refl _

theorem grows_printAfter {before : String} {part : StampPart} {printer : Option Printer}
    {text : Except String String} (h : w.printAfter before part printer = .ok (text, v)) :
    w.Grows v := by
  unfold printAfter at h
  split at h
  · cases h
    exact .refl _
  · split at h <;> cases h <;> exact grows_printPart ‹_›

theorem grows_stamp (w : World) : w.Grows w.stamp.2 := by
  unfold stamp
  dsimp only
  split
  · exact .refl w
  · exact grows_printAfter ‹_›
  · rename_i v htime
    have ht := grows_printAfter htime
    split
    · exact ht
    · exact ht.trans (grows_printAfter ‹_›)
    · exact ht.trans (grows_printAfter ‹_›)

theorem grows_print (w : World) (call : PrinterCall) : w.Grows (w.print call).2 := by
  cases call with
  | install part printer => cases part <;> exact .of_places rfl
  | installed => exact .refl w
  | stamp => exact grows_stamp w
  | print part =>
    rw [print]
    split
    · exact .refl w
    · exact grows_printPart ‹_›

theorem grows_note (w : World) (s : Sighting) : w.Grows (w.note s).2 := by
  cases s with
  | number n => exact .of_places rfl
  | label s => exact .of_places rfl
  | now | nowAnd i =>
    rw [note]
    dsimp only
    split
    · exact .refl w
    · rename_i hn
      have h := grows_nowOf hn
      exact h.trans (.of_places rfl)
  | context =>
    rw [note]
    dsimp only
    split
    · exact .refl w
    · rename_i hc
      have h := grows_contextOf hc
      exact h.trans (.of_places rfl)

theorem grows_enroll (w : World) (call : RegistryCall) : w.Grows (w.enroll call).2 := by
  cases call with
  | lookupKernel name =>
    rw [enroll]
    split
    · exact .refl w
    · exact grows_make w _
  | lookupScheduler name =>
    rw [enroll]
    split <;> exact .refl w
  | _ => exact .of_places rfl

/-- A kernel is handed over. -/
theorem install_eq_ok (h : w.install id = .ok (.ok w')) : ∃ b, w' = w.occupy id b := by
  unfold install at h
  split at h
  · cases h
  · split at h
    · cases h
    · split at h <;> cases h
      exact ⟨_, rfl⟩

theorem grows_installFresh (w : World) (spec : KernelSpec) :
    w.Grows (w.installFrom (.fresh spec)).2 := by
  have hg := grows_make w spec
  rw [installFrom]
  dsimp only
  split
  · exact hg
  · exact hg
  · obtain ⟨b, rfl⟩ := install_eq_ok ‹_›
    exact grows_occupy hg (between_make w spec) b

/-- **A command that runs nothing loses no kernel and brings only new ones into their places**,
unless it hands a named one to the facade. -/
theorem grows_perform (w : World) {c : Command} (hc : ¬ c.Installs) : w.Grows (w.perform c).2 := by
  cases c with
  | schedule t timing name a => exact grows_schedule w t timing name a
  | scheduleEach t delays name a =>
    have h := grows_scheduleEach t name a delays w 0
    rw [perform]
    split <;> rename_i hs <;> rwa [hs] at h
  | chain t tag delay length name =>
    cases length with
    | zero => exact .refl w
    | succ left => exact grows_schedule w t _ name _
  | stopAfter t delay name =>
    refine grows_onReached fun id e v => ?_
    split <;> exact places_setEngine v id _
  | cancel | remove =>
    exact .of_places (places_onFound fun id e =>
      (places_releaseAll _ _).trans (places_setEngine w id _))
  | isExpired => exact .of_places (places_onFound fun _ _ => rfl)
  | delayLeft => exact grows_onReached fun _ _ _ => by split <;> rfl
  | stop => exact grows_onReached fun id _ v => places_setEngine v id _
  | attach t b => exact grows_onReached fun id _ v => places_attach v id b
  | query t q =>
    cases q with
    | systemId => exact .of_places (places_onFound fun _ _ => rfl)
    | _ => exact grows_onReached fun _ _ _ => rfl
  | forge => exact .of_places rfl
  | build name spec => exact grows_build w name spec
  | attachNamed name =>
    rw [perform]
    split
    · exact .refl w
    · exact grows_onReached fun id _ v => places_attach v id _
  | install source =>
    cases source with
    | held => exact (hc trivial).elim
    | fresh spec => exact grows_installFresh w spec
  | config call => exact .of_places (places_configure w call)
  | registry call => exact grows_enroll w call
  | printing call => exact grows_print w call
  | trace call => cases call <;> exact .of_places rfl
  | observe s => exact grows_note w s
  | capture => exact grows_onReached fun _ _ _ => rfl
  | backendName name =>
    rw [perform]
    split <;> exact .refl w
  | _ => exact .refl w

/-! ### Kernels that are known -/

/-- Every kernel that is known was made. -/
structure Housed (w : World) : Prop where
  slot : ∀ {id}, w.slot = some id → id < w.engines.length
  named : ∀ {p}, p ∈ w.named → p.2 < w.engines.length

theorem Housed.grows (h : w.Housed) (g : w.Grows w') : w'.Housed where
  slot hs := by
    rcases g.slot hs with hs | hb
    · exact Nat.lt_of_lt_of_le (h.slot hs) g.length
    · exact hb.2
  named hp := by
    rcases g.named hp with hp | hb
    · exact Nat.lt_of_lt_of_le (h.named hp) g.length
    · exact hb.2

theorem Housed.lookup (h : w.Housed) {name : KernelName} (hl : w.lookup name = .ok id) :
    id < w.engines.length := by
  unfold World.lookup at hl
  split at hl
  · rename_i j hj
    cases hl
    obtain ⟨l, l', hn, -⟩ := List.lookup_eq_some_iff.1 hj
    exact h.named (p := (name, id)) (by simp [hn])
  · cases hl

/-- **Whoever is called is there.** -/
theorem Housed.reach (h : w.Housed) {t : Target} (hr : w.reach t = .ok (id, v)) :
    ∃ e, v.engine? id = some e := by
  suffices hlt : id < v.engines.length from ⟨_, List.getElem?_eq_getElem hlt⟩
  unfold World.reach resolve at hr
  split at hr
  · split at hr
    · cases hr
      exact h.slot ‹_›
    · exact (grows_construct hr).2.2
  · split at hr <;> cases hr
    exact h.lookup ‹_›

theorem Housed.occupy (h : w.Housed) (hid : id < w.engines.length) (b : Backend) :
    (w.occupy id b).Housed := by
  obtain ⟨hl, hp⟩ := Prod.mk.inj (places_occupy w id b)
  obtain ⟨hs, hn⟩ := Prod.mk.inj hp
  constructor
  case slot =>
    intro j hj
    cases hs.symm.trans hj
    exact hl ▸ hid
  case named =>
    intro p hp
    exact hl ▸ h.named (hn ▸ hp)

theorem Housed.perform (h : w.Housed) (c : Command) : (w.perform c).2.Housed := by
  by_cases hc : c.Installs
  · cases c with
    | install source =>
      cases source with
      | fresh => exact hc.elim
      | held name =>
        rw [World.perform, installFrom]
        split
        · exact h
        · rename_i hl
          split
          · exact h
          · exact h
          · obtain ⟨b, rfl⟩ := install_eq_ok ‹_›
            exact h.occupy (h.lookup hl) b
    | _ => exact hc.elim
  · exact h.grows (grows_perform w hc)

end World

end EventSim
