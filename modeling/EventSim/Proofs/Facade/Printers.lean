import EventSim.Proofs.Facade.Trail

/-!
# Printers and the slot

The facade installs the printers when it fills the slot, and a teardown takes them away before it
destroys the kernel.  So a printer without a kernel should not be.  But a teardown clears the slot
whatever is in it by then: if a teardown event empties the slot by a teardown of its own and lets
the facade build another kernel, the outer teardown takes that kernel out, and its printers stay.

`Trail.printers_iff` says that nothing else goes wrong: as long as no program installs printers
itself, **there is never a printer without a kernel, unless a teardown ends with a slot that was
emptied and filled again since it began**.
-/

namespace EventSim

/-- The command installs no printer by itself. -/
def Command.LeavesPrinters (c : Command) : Prop :=
  ∀ part printer, c ≠ .printing (.install part printer)

/-- There is a kernel for the printers to ask. -/
def World.Backed (w : World) : Prop := w.printers.installed = true → w.slot.isSome = true

/-- Since the stack was last as low as `depth`, the slot was empty at some time. -/
def EmptiedAbove (depth : Nat) : List Machine → Prop
  | [] => False
  | m :: older => depth < m.stack.length ∧ (m.world.slot = none ∨ EmptiedAbove depth older)

/-- A teardown is about to end with a slot that was emptied and filled again since it began. -/
def Refilled : List Machine → Prop
  | [] => False
  | m :: older =>
    ∃ found rest, m.stack = .clearing found :: rest ∧ m.world.slot.isSome = true ∧
      EmptiedAbove rest.length (m :: older)

/-- The number of frames below the innermost end of a teardown. -/
def innermost : List Mark → Option Nat
  | [] => none
  | .clearing _ :: rest => some rest.length
  | .plain :: rest | .destroying _ :: rest => innermost rest

instance (depth : Nat) : (t : List Machine) → Decidable (EmptiedAbove depth t)
  | [] => inferInstanceAs (Decidable False)
  | m :: older =>
    have := instDecidableEmptiedAbove depth older
    inferInstanceAs (Decidable (depth < m.stack.length ∧ (m.world.slot = none ∨ _)))

variable {p starts : Command → Prop} {w w' : World} {m n : Machine} {older t : List Machine}
  {s s' : List Mark}

theorem Command.Staged.leavesPrinters {c : Command} (h : c.Staged) : c.LeavesPrinters := by
  rintro part printer rfl
  exact h

/-! ### The innermost teardown -/

theorem lt_of_innermost {d : Nat} (h : innermost s = some d) : d < s.length := by
  induction s with
  | nil => cases h
  | cons mark rest ih =>
    rw [List.length_cons]
    cases mark with
    | clearing found =>
      cases h
      exact Nat.lt_succ_self _
    | plain => exact Nat.lt_succ_of_lt (ih h)
    | destroying id => exact Nat.lt_succ_of_lt (ih h)

theorem Shifts.innermost (h : Shifts starts s s') : s' = [] ∨ innermost s' = innermost s := by
  cases h with
  | panicked => exact .inl rfl
  | _ => exact .inr rfl

/-! ### The facade between the ends of teardowns -/

/-- The facade was left alone, or it has found itself a kernel and made it ready. -/
inductive Settled (w w' : World) : Prop
  | kept : w'.slot = w.slot → w'.printers = w.printers → Settled w w'
  | filled : w.slot = none → w'.slot.isSome = true → w'.printers = .standard → Settled w w'

theorem World.facade_attach (w : World) (id : KernelId) (b : Backend) :
    (w.attach id b).slot = w.slot ∧ (w.attach id b).printers = w.printers := by
  unfold World.attach
  split
  · exact ⟨rfl, rfl⟩
  · dsimp only
    split <;> exact ⟨rfl, rfl⟩

theorem Settled.of_eq {w'' : World} (h : Settled w w') (hs : w''.slot = w'.slot)
    (hp : w''.printers = w'.printers) : Settled w w'' := by
  cases h with
  | kept hs' hp' => exact .kept (hs.trans hs') (hp.trans hp')
  | filled he hs' hp' => exact .filled he (hs ▸ hs') (hp.trans hp')

theorem settled_of_calm (h : World.Evolves (Calm Command.LeavesPrinters) w w') : Settled w w' := by
  refine h.keeps (fun v x v' hx hc hv => ?_) (.kept rfl rfl)
  cases hx with
  | aside ha => exact hv.of_eq ha.slot ha.printers
  | @occupied id name b hs hb =>
    have hattach := World.facade_attach { v with slot := some id } id b
    have hslot : (v.occupy id b).slot.isSome = true := congrArg Option.isSome hattach.1
    cases hv with
    | kept hs' => exact .filled (hs'.symm.trans hs) hslot rfl
    | filled he => exact .filled he hslot rfl
  | configured => exact hv.of_eq (World.facade_attach _ _ _).1 (World.facade_attach _ _ _).2
  | printed =>
    obtain ⟨part, printer, hp⟩ := hc
    exact (hp part printer rfl).elim
  | vacated => exact hc.elim
  | unprinted => exact hc.elim
  | _ => exact hv.of_eq rfl rfl

/-! ### Trails -/

/-- How the printers stand to the innermost teardown: it has taken them away, and if the slot was
emptied since, then whoever filled it again has installed them anew. -/
def Balanced (t : List Machine) : Prop :=
  ∀ m ∈ t.head?, ∀ d, innermost (marks m.stack) = some d →
    (EmptiedAbove d t → m.world.slot ≠ none → m.world.printers.installed = true) ∧
      (¬ EmptiedAbove d t → m.world.printers.installed = false)

theorem balanced (h : Trail Command.LeavesPrinters t) : Balanced t := by
  refine h.moves (fun c => Command.Staged.leavesPrinters) (fun environment => ?_)
    fun n m older _ hturns hbal => ?_
  · rintro m hm d hd
    cases hm
    cases hd
  · rintro _ ⟨⟩ d hd
    have hlt : d < n.stack.length := by
      have := lt_of_innermost hd
      rwa [marks, List.length_map] at this
    have hempty : EmptiedAbove d (n :: m :: older) ↔
        n.world.slot = none ∨ EmptiedAbove d (m :: older) := by
      simp [EmptiedAbove, hlt]
    cases hturns with
    | shifted hw hs =>
      rcases hs.innermost with hnil | hsame
      · rw [hnil] at hd
        cases hd
      · have hm := hbal m rfl d (hsame ▸ hd)
        have hlt' : d < m.stack.length := by
          have := lt_of_innermost (hsame ▸ hd)
          rwa [marks, List.length_map] at this
        have hempty' : m.world.slot = none → EmptiedAbove d (m :: older) :=
          fun h => ⟨hlt', .inl h⟩
        rw [hempty, not_or]
        cases settled_of_calm hw with
        | kept hslot hprinters =>
          rw [hslot, hprinters]
          refine ⟨fun he hne => hm.1 ?_ hne, fun he => hm.2 he.2⟩
          exact he.resolve_left hne
        | filled hslot hsome hprinters =>
          rw [hprinters]
          exact ⟨fun _ _ => rfl, fun he => (he.2 (hempty' hslot)).elim⟩
    | @torn id below _ hslot hprinters _ _ hbelow hmarks =>
      have hd' : d = below.length := by
        rcases hmarks with ⟨hmarks, -⟩ | hmarks
        · rw [hmarks] at hd
          exact (Option.some.inj hd).symm
        · rw [hmarks] at hd
          exact (Option.some.inj hd).symm
      have hle : m.stack.length ≤ d := by
        have hlen : (marks m.stack).length = m.stack.length := List.length_map _
        rcases hbelow with rfl | rfl
        · omega
        · rw [hd', List.length_cons]
          omega
      rw [hempty, hslot, hprinters]
      refine ⟨fun he _ => ?_, fun _ => rfl⟩
      rcases he with he | he
      · cases he
      · exact absurd he.1 (Nat.not_lt.2 hle)
    | cleared found hs hslot hprinters =>
      rw [hempty, not_or]
      exact ⟨fun _ hne => (hne hslot).elim, fun he => (he.1 hslot).elim⟩

theorem innermost_clearing {found : KernelId} {rest : List Frame}
    (h : m.stack = .clearing found :: rest) : innermost (marks m.stack) = some rest.length := by
  have hlen : (marks rest).length = rest.length := List.length_map _
  rw [h, ← hlen]
  rfl

/-- Before the last state of a part of the past there is a next one. -/
theorem exists_next {l : List Machine} (ht : t ≠ []) (h : l <:+ t.tail) : ∃ n, (n :: l) <:+ t := by
  obtain ⟨x, rest, rfl⟩ := List.exists_cons_of_ne_nil ht
  obtain ⟨newer, rfl⟩ := h
  rcases List.eq_nil_or_concat newer with rfl | ⟨newer, y, rfl⟩
  · exact ⟨x, List.suffix_refl _⟩
  · exact ⟨y, x :: newer, by simp⟩

/-- **There is a printer without a kernel exactly if a teardown has ended with a slot that was
emptied and filled again since it began.** -/
theorem Trail.backed_iff (h : Trail Command.LeavesPrinters t) :
    (∀ m ∈ t, m.world.Backed) ↔ ∀ l, l <:+ t.tail → ¬ Refilled l := by
  have hp (c : Command) (hc : c.Staged) : c.LeavesPrinters := hc.leavesPrinters
  constructor
  · rintro hbacked (_ | ⟨m, older⟩) hl hr
    · exact hr
    obtain ⟨found, rest, hstack, hsome, hemptied⟩ := hr
    obtain ⟨n, hn⟩ := exists_next h.ne_nil hl
    have htrail := h.suffix hn
    have hturns := htrail.turns hp
    rw [hstack] at hturns
    obtain ⟨-, hslot, hprinters⟩ := Turns.ends hturns
    -- the kernel goes, but its printers, which were installed when the slot was filled, stay
    have hinstalled := (balanced htrail.tail m rfl rest.length (innermost_clearing hstack)).1
      hemptied (Option.isSome_iff_ne_none.1 hsome)
    have hbad := hbacked n (hn.subset List.mem_cons_self) (hprinters ▸ hinstalled)
    rw [hslot] at hbad
    cases hbad
  · refine h.moves hp (I := fun t => (∀ l, l <:+ t.tail → ¬ Refilled l) → ∀ m ∈ t, m.world.Backed)
      (fun environment _ m hm => ?_) fun n m older htrail hturns ih hno => ?_
    · cases List.mem_singleton.1 hm
      intro hi
      cases hi
    have hbacked := ih fun l hl => hno l (hl.trans (List.suffix_cons m older))
    refine List.forall_mem_cons.2 ⟨?_, hbacked⟩
    have hm := hbacked m List.mem_cons_self
    cases hturns with
    | shifted hw _ =>
      cases settled_of_calm hw with
      | kept hslot hprinters =>
        unfold World.Backed
        rwa [hslot, hprinters]
      | filled _ hsome _ => exact fun _ => hsome
    | torn _ hslot _ _ _ _ _ => exact fun _ => congrArg Option.isSome hslot
    | cleared found hs _ hprinters =>
      intro hi
      rw [hprinters] at hi
      obtain ⟨rest, hstack, -⟩ := eq_clearing_of_marks hs
      have hbal := balanced htrail.tail m rfl rest.length (innermost_clearing hstack)
      refine absurd ⟨found, rest, hstack, hm hi, ?_⟩ (hno (m :: older) (List.suffix_refl _))
      by_contra hemptied
      rw [hbal.2 hemptied] at hi
      cases hi

/-! ### A kernel built by a teardown event -/

/-- A teardown whose event tears down by itself and then asks for the present: the last state is the
one in which the outer teardown has ended. -/
def rebuilt : List Machine :=
  let event : Action := .silent [.teardown, .query .facade .now]
  let m := Machine.ofCall (.pristine none) (.schedule .facade .atTeardown (.numbered 0) event)
  follow 8 [.ofCall m.world .teardown, m, ⟨.pristine none, [], none⟩]

theorem trail_rebuilt : Trail Command.LeavesPrinters rebuilt := by
  refine Trail.follow (.call (.call (.pristine none) rfl ?_) rfl ?_) 8
  · simp [Command.All, Action.silent, Action.All, allOf, Command.LeavesPrinters]
  · simp [Command.All, Command.LeavesPrinters]

/-- The printers outlive the kernel for which they were installed. -/
theorem not_backed_rebuilt : ¬ ∀ m ∈ rebuilt, m.world.Backed := by
  intro hbacked
  refine trail_rebuilt.backed_iff.1 hbacked rebuilt.tail (List.suffix_refl _) ?_
  exact ⟨0, [], rfl, by decide +kernel, by decide +kernel⟩

end EventSim
