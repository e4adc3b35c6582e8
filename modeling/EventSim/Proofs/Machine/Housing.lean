import EventSim.Proofs.Machine.History
import EventSim.Proofs.World.Growth

/-!
# Moves lose no kernel

A move loses no kernel and brings only new ones into the slot and under names, unless it starts a
command that hands a named kernel to the facade (`grows_start`, `grows_make`).  So **in every state
of a session, whoever is called is there** (`Reached.housed`), and a kernel that has lost its name
does not get another one (`names_make`).
-/

namespace EventSim

namespace World

variable {w w' w'' : World} {id : KernelId}

theorem grows_forgetInjected (w : World) : w.Grows w.forgetInjected where
  length := Nat.le_refl _
  slot hs := .inl hs
  named hp := .inl (List.mem_of_mem_filter hp)

/-- No kernel was lost, and whatever kernel has got a name was made in between. -/
structure Names (w w' : World) : Prop where
  length : w.engines.length ≤ w'.engines.length
  named : ∀ {p}, p ∈ w'.named → p ∈ w.named ∨ w.Between w' p.2

theorem Grows.names (h : w.Grows w') : w.Names w' := ⟨h.length, h.named⟩

theorem Names.trans (h : w.Names w') (g : w'.Names w'') : w.Names w'' where
  length := Nat.le_trans h.length g.length
  named hp := by
    rcases g.named hp with hp | hb
    · exact (h.named hp).imp_right fun hb => hb.mono_right g.length
    · exact .inr (hb.mono_left h.length)

/-- A kernel without a name gets none. -/
theorem Names.isNamed (h : w.Names w') (hid : id < w.engines.length)
    (hn : w.isNamed id = false) : w'.isNamed id = false := by
  simp only [World.isNamed, List.any_eq_false, beq_iff_eq] at hn ⊢
  rintro p hp rfl
  rcases h.named hp with hp | hb
  · exact hn p hp rfl
  · exact absurd hid (Nat.not_lt.2 hb.1)

/-- A kernel that is handed to the facade gets no name by it. -/
theorem names_perform (w : World) (c : Command) : w.Names (w.perform c).2 := by
  by_cases hc : c.Installs
  · cases c with
    | install source =>
      cases source with
      | fresh => exact hc.elim
      | held name =>
        rw [World.perform, installFrom]
        split
        · exact (Grows.refl w).names
        · split
          · exact (Grows.refl w).names
          · exact (Grows.refl w).names
          · rename_i id _ _ _ _
            obtain ⟨b, rfl⟩ := install_eq_ok ‹_›
            obtain ⟨hl, hp⟩ := Prod.mk.inj (places_occupy w id b)
            obtain ⟨-, hn⟩ := Prod.mk.inj hp
            exact ⟨Nat.le_of_eq hl.symm, fun hp => .inl (hn ▸ hp)⟩
    | _ => exact hc.elim
  · exact (grows_perform w hc).names

end World

namespace Machine

variable {m : Machine} {w v : World} {s rest : List Frame} {r : Option (Except Panic Reply)}
  {id : KernelId} {c : Command} {x : Move}

theorem grows_panic (p : Panic) : w.Grows (panic ⟨w, s, r⟩ p).world := w.grows_forgetInjected

@[simp] theorem places_deliver (x : Reply) : (deliver ⟨w, s, r⟩ x).world.places = w.places := by
  unfold deliver
  dsimp only
  split
  · rfl
  · dsimp only
    split <;> rfl
  · split <;> rfl
  · rfl

theorem grows_deliver (x : Reply) : w.Grows (deliver ⟨w, s, r⟩ x).world :=
  .of_places (places_deliver x)

theorem grows_startAction (a : Action) : w.Grows (startAction ⟨w, s, r⟩ a).world := by
  unfold startAction
  dsimp only
  split
  · exact .refl w
  · split
    · exact grows_panic _
    · have hn := World.grows_nowOf ‹_›
      split
      · exact hn.trans (World.grows_forgetInjected _)
      · have hc := World.grows_contextOf ‹_›
        exact (hn.trans hc).trans (.of_places rfl)

theorem places_beginRun (id : KernelId) : (beginRun ⟨w, s, r⟩ id).world.places = w.places := by
  unfold beginRun
  split
  · exact World.places_setEngine w id _
  · exact places_deliver _

theorem places_beginDestroy (id : KernelId) :
    (beginDestroy ⟨w, s, r⟩ id).world.places = w.places := by
  unfold beginDestroy
  split
  · dsimp only
    split <;> rfl
  · exact places_deliver _

theorem places_beginTeardown : (beginTeardown ⟨w, s, r⟩).world.places = w.places := by
  unfold beginTeardown
  split
  · exact places_deliver _
  · exact places_beginDestroy (w := { w with printers := .none }) _

theorem grows_start_of_drives (h : c.drives = true) : w.Grows (start ⟨w, s, r⟩ c).world := by
  cases c with
  | run t =>
    rw [start]
    split
    · exact grows_panic _
    · exact (World.grows_reach ‹_›).trans (.of_places (places_beginRun _))
  | destroy t =>
    rw [start]
    split
    · exact grows_panic _
    · exact (World.grows_reach ‹_›).trans (.of_places (places_beginDestroy _))
  | teardown => exact .of_places places_beginTeardown
  | scenario request =>
    rw [start]
    split
    · exact grows_deliver _
    · exact .of_places places_beginTeardown
  | _ => cases h

theorem grows_start_of_not_drives (h : c.drives = false) :
    (w.perform c).2.Grows (start ⟨w, s, r⟩ c).world := by
  rw [start_of_not_drives h]
  split <;> rename_i hp <;> rw [hp]
  · exact grows_panic _
  · exact grows_deliver _

/-- A command that starts loses no kernel. -/
theorem grows_start (hc : ¬ c.Installs) : w.Grows (start ⟨w, s, r⟩ c).world := by
  cases hd : c.drives with
  | true => exact grows_start_of_drives hd
  | false => exact (w.grows_perform hc).trans (grows_start_of_not_drives hd)

theorem housed_start (h : w.Housed) (c : Command) : (start ⟨w, s, r⟩ c).world.Housed := by
  cases hd : c.drives with
  | true => exact h.grows (grows_start_of_drives hd)
  | false => exact (h.perform c).grows (grows_start_of_not_drives hd)

/-! ### Steps -/

theorem grows_stepRun (rest : List Frame) : w.Grows (stepRun ⟨w, s, r⟩ id rest).world := by
  have ht := runTurn_stepRun w id s rest r
  generalize stepRun ⟨w, s, r⟩ id rest = n at ht ⊢
  have hset (e : Engine Action) : w.Grows (w.setEngine id e) :=
    .of_places (World.places_setEngine w id e)
  cases ht with
  | absent => exact grows_deliver _
  | ended => exact (hset _).trans (grows_deliver _)
  | skipped => exact (hset _).trans (.of_places (World.places_releaseAll _ _))
  | strayed =>
    exact ((hset _).trans (.of_places (World.places_releaseAll _ _))).trans (grows_panic _)
  | halted => exact hset _
  | launched => exact (hset _).trans (grows_startAction _)

theorem grows_stepDestroy (rest : List Frame) : w.Grows (stepDestroy ⟨w, s, r⟩ id rest).world := by
  have ht := destroyTurn_stepDestroy w id s rest r
  generalize stepDestroy ⟨w, s, r⟩ id rest = n at ht ⊢
  have hset (e : Engine Action) : w.Grows (w.setEngine id e) :=
    .of_places (World.places_setEngine w id e)
  cases ht with
  | absent => exact grows_deliver _
  | unwound => exact (hset _).trans (grows_startAction _)
  | swept =>
    exact ((hset _).trans (.of_places (World.places_releaseAll _ _))).trans (grows_deliver _)

theorem grows_stepClear (rest : List Frame) : w.Grows (stepClear ⟨w, s, r⟩ rest).world := by
  unfold stepClear
  refine World.Grows.trans ?_ (grows_deliver _)
  dsimp only
  split
  · exact .refl w
  · have hclear : w.Grows { w with slot := none } :=
      ⟨Nat.le_refl _, fun hs => (by cases hs), fun hp => .inl hp⟩
    exact hclear.trans (.of_places (World.places_abandon _ _))

theorem grows_stepOpened (run : ScenarioRun) (rest : List Frame) :
    w.Grows (stepOpened ⟨w, s, r⟩ run rest).world := by
  unfold stepOpened
  split
  · exact grows_panic _
  · have h := w.places_chooseScheduler run.scheduler
    split <;> rename_i hc <;> rw [hc] at h
    · exact (World.Grows.of_places h).trans (grows_panic _)
    · exact .of_places h
    · exact .of_places h

theorem grows_stepRestore (run : ScenarioRun) (saved : Config)
    (verdict : Except String (Nat × Time)) (rest : List Frame) :
    w.Grows (stepRestore ⟨w, s, r⟩ run saved verdict rest).world := by
  unfold stepRestore
  have h := w.places_apply saved
  split <;> rename_i ha <;> rw [ha] at h
  · exact (World.Grows.of_places h).trans (grows_panic _)
  · exact ((World.Grows.of_places h).trans (World.grows_forgetInjected _)).trans (grows_deliver _)

/-! ### Moves -/

theorem places_onset (h : m.onset? x = some (v, c)) : v.places = m.world.places := by
  rcases (start_of_onset h).1 with rfl | rfl <;> rfl

/-- **A move that starts no command loses no kernel.** -/
theorem grows_make (h : m.onset? x = none) : m.world.Grows (m.make x).world := by
  obtain ⟨w, stack, result⟩ := m
  cases x with
  | call => cases h
  | unwind => exact .refl w
  | step =>
    cases stack with
    | nil => exact .refl w
    | cons f rest =>
      cases f with
      | body reporting left =>
        cases left with
        | nil => exact .refl w
        | cons => cases h
      | answering => exact .refl w
      | running => exact grows_stepRun rest
      | destroying => exact grows_stepDestroy rest
      | clearing => exact grows_stepClear rest
      | scenario run stage =>
        cases stage with
        | opened => exact grows_stepOpened run rest
        | probing saved left replies =>
          cases left with
          | nil => exact .refl w
          | cons => cases h
        | judging => exact .refl w
        | judged => exact .of_places places_beginTeardown
        | restoring saved verdict => exact grows_stepRestore run saved verdict rest

/-- **A move gives no name to a kernel that is there already.** -/
theorem names_make (m : Machine) (x : Move) : m.world.Names (m.make x).world := by
  cases ho : m.onset? x with
  | none => exact (grows_make ho).names
  | some p =>
    obtain ⟨v, c⟩ := p
    obtain ⟨-, s, r, hm⟩ := start_of_onset ho
    have hv : m.world.Grows v := .of_places (places_onset ho)
    rw [hm]
    cases hd : c.drives with
    | true => exact (hv.trans (grows_start_of_drives hd)).names
    | false =>
      exact (hv.names.trans (v.names_perform c)).trans (grows_start_of_not_drives hd).names

/-- Moves keep every kernel that is known where it can be called. -/
theorem housed_make (h : m.world.Housed) (x : Move) : (m.make x).world.Housed := by
  cases ho : m.onset? x with
  | none => exact h.grows (grows_make ho)
  | some p =>
    obtain ⟨v, c⟩ := p
    obtain ⟨-, s, r, hm⟩ := start_of_onset ho
    rw [hm]
    exact housed_start (h.grows (.of_places (places_onset ho))) c

/-- **In every state of a session, whoever is called is there.** -/
theorem Reached.housed {p : Command → Prop} (h : Reached p m) : m.world.Housed := by
  induction h with
  | pristine environment => exact ⟨fun hs => (by cases hs), fun hp => by cases hp⟩
  | @call m c _ _ _ ih => exact housed_make ih (.call c)
  | step _ ih => exact housed_make ih .step
  | unwound _ _ ih => exact ih

end Machine

end EventSim
