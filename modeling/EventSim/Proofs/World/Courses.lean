import EventSim.Proofs.Kernel.Tallies
import EventSim.Proofs.World.Sound

/-!
# What becomes of each kernel

Whatever happens, a kernel stays where it is and does deeds, one after the other.  `World.Courses`
says so of all kernels at once, `Courses.evolves` reads it off what happened, and what every deed
keeps is kept by whole programs: numbers stay different, and a spent number stays spent.
-/

namespace EventSim

/-- The kernel does deeds of a kind, one after the other. -/
inductive Kernel.Course (p : Deed Action → Prop) : Kernel Action → Kernel Action → Prop
  | refl (k : Kernel Action) : Course p k k
  | does {k k' k'' : Kernel Action} {d : Deed Action} :
      Course p k k' → p d → k'.Does d k'' → Course p k k''

namespace Kernel.Course

variable {p : Deed Action → Prop} {k k' k'' : Kernel Action} {uid : Nat}

theorem trans (h : Course p k k') (g : Course p k' k'') : Course p k k'' := by
  induction g with
  | refl => exact h
  | does _ hp hd ih => exact .does ih hp hd

theorem id_eq (h : Course p k k') : k'.id = k.id := by
  induction h with
  | refl => rfl
  | does _ _ hd ih => exact hd.id_eq.trans ih

theorem tallied (h : Course p k k') (t : k.Tallied) : k'.Tallied := by
  induction h with
  | refl => exact t
  | does _ _ hd ih => exact ih.does hd

theorem spent (h : Course p k k') (t : k.Tallied) (s : k.Spent uid) : k'.Spent uid := by
  induction h with
  | refl => exact s
  | does g _ hd ih => exact ih.does (g.tallied t) hd

/-- A kernel that accepts nothing has no event that it had not before. -/
theorem items (h : Course p k k') (t : k.Tallied) (hp : ∀ d, p d → d.accepted = []) :
    k'.items ⊆ k.items := by
  induction h with
  | refl => exact List.Subset.refl _
  | does g hd hdoes ih =>
    have hb := (g.tallied t).balance hdoes
    rw [hp _ hd, List.nil_append] at hb
    exact fun i hi => ih (hb.subset (List.mem_append_right _ hi))

end Kernel.Course

namespace World

variable {w w' w'' : World} {id : KernelId} {x : Happening} {p : KernelId → Deed Action → Prop}

/-- Every kernel has done deeds of the kind, or it is new and has done such deeds since. -/
structure Courses (p : KernelId → Deed Action → Prop) (w w' : World) : Prop where
  back : ∀ {id watched k'}, w'.engine? id = some (.builtIn watched k') →
    (∃ k, w.engine? id = some (.builtIn watched k) ∧ k.Course (p id) k') ∨
      ∃ systemId, (Kernel.fresh id systemId).Course (p id) k'
  forth : ∀ {id watched k}, w.engine? id = some (.builtIn watched k) →
    ∃ k', w'.engine? id = some (.builtIn watched k') ∧ k.Course (p id) k'

namespace Courses

theorem of_engines (h : w'.engines = w.engines) : Courses p w w' := by
  have he (id : KernelId) : w'.engine? id = w.engine? id := by rw [engine?, h]; rfl
  refine ⟨fun {id watched k'} hk => .inl ⟨k', ?_, .refl k'⟩,
    fun {id watched k} hk => ⟨k, ?_, .refl k⟩⟩
  · rwa [he] at hk
  · rwa [he]

theorem trans (h : Courses p w w') (g : Courses p w' w'') : Courses p w w'' := by
  refine ⟨fun {id watched k''} hk => ?_, fun {id watched k} hk => ?_⟩
  · rcases g.back hk with ⟨k', hk', hg⟩ | hnew
    · rcases h.back hk' with ⟨k, hk, hh⟩ | ⟨systemId, hh⟩
      · exact .inl ⟨k, hk, hh.trans hg⟩
      · exact .inr ⟨systemId, hh.trans hg⟩
    · exact .inr hnew
  · obtain ⟨k', hk', hh⟩ := h.forth hk
    obtain ⟨k'', hk'', hg⟩ := g.forth hk'
    exact ⟨k'', hk'', hh.trans hg⟩

theorem made (w : World) (spec : KernelSpec) :
    Courses p w { w with engines := w.engines ++ [Engine.make w.engines.length spec] } := by
  refine ⟨fun {id watched k'} hk => ?_, fun {id watched k} hk => ⟨k, ?_, .refl k⟩⟩
  · rcases engine?_append hk with hk | ⟨rfl, he⟩
    · exact .inl ⟨k', hk, .refl k'⟩
    · cases spec <;> cases he <;> exact .inr ⟨_, .refl _⟩
  · obtain ⟨hlt, hget⟩ := List.getElem?_eq_some_iff.1 hk
    exact (List.getElem?_append_left hlt).trans (List.getElem?_eq_some_iff.2 ⟨hlt, hget⟩)

theorem did {watched : Bool} {k k' : Kernel Action} {d : Deed Action}
    (hk : w.engine? id = some (.builtIn watched k)) (hd : k.Does d k') (hp : p id d) :
    Courses p w (w.setEngine id (.builtIn watched k')) := by
  refine ⟨fun {j watched' l} hl => ?_, fun {j watched' l} hl => ?_⟩
  · rcases engine?_setEngine hl with ⟨rfl, he⟩ | ⟨-, hl⟩
    · cases he
      exact .inl ⟨k, hk, .does (.refl k) hp hd⟩
    · exact .inl ⟨l, hl, .refl l⟩
  · by_cases hj : id = j
    · subst hj
      cases hk.symm.trans hl
      exact ⟨k', engine?_setEngine_self hk _, .does (.refl k) hp hd⟩
    · exact ⟨l, (engine?_setEngine_ne _ hj).trans hl, .refl l⟩

theorem attach (hp : ∀ id b, p id (.attached b)) (w : World) (id : KernelId) (b : Backend) :
    Courses p w (w.attach id b) :=
  attach_induction (I := Courses p w) (of_engines rfl)
    (fun _ _ ha hv => hv.trans (of_engines ha.engines))
    fun _ _ k hk hv => hv.trans (did hk (.attached k b) (hp id b))

/-- The kernels do nothing but what happens. -/
theorem happens (hp : ∀ id b, p id (.attached b)) (h : w.Happens x w')
    (hx : ∀ id d, x = .did id d → p id d) : Courses p w w' := by
  cases h with
  | aside ha => exact of_engines ha.engines
  | made spec => exact made w spec
  | did hk hd _ => exact did hk hd (hx _ _ rfl)
  | issued name hk hi => exact (did hk (.issued hi) (hx _ _ rfl)).trans (of_engines rfl)
  | @occupied id name b _ _ =>
    have hslot : Courses p w { w with slot := some id } := of_engines rfl
    exact (hslot.trans (attach hp _ id b)).trans (of_engines rfl)
  | configured => exact attach hp w _ _
  | _ => exact of_engines rfl

theorem evolves {q : Happening → Prop} (hp : ∀ id b, p id (.attached b))
    (h : Evolves q w w') (hq : ∀ id d, q (.did id d) → p id d) : Courses p w w' :=
  h.keeps (I := Courses p w)
    (fun _ _ _ hx hm hv => hv.trans (happens hp hx fun id d hd => hq id d (hd ▸ hm)))
    (of_engines rfl)

end Courses

/-! ### Numbers -/

/-- Every kernel is where its identity says, and the numbers of its events are different. -/
def Tallied (w : World) : Prop :=
  ∀ id watched k, w.engine? id = some (.builtIn watched k) → k.id = id ∧ k.Tallied

/-- The number was handed out by the kernel, and no event of the kernel has it any more. -/
def Spent (w : World) (event : KernelId × Nat) : Prop :=
  ∃ watched k, w.engine? event.1 = some (.builtIn watched k) ∧ k.Spent event.2

namespace Courses

theorem tallied (h : Courses p w w') (t : w.Tallied) : w'.Tallied := by
  intro id watched k' hk'
  rcases h.back hk' with ⟨k, hk, hc⟩ | ⟨systemId, hc⟩
  · obtain ⟨hid, ht⟩ := t _ _ _ hk
    exact ⟨hc.id_eq.trans hid, hc.tallied ht⟩
  · exact ⟨hc.id_eq, hc.tallied (Kernel.tallied_fresh id systemId)⟩

/-- **A number that is spent stays spent**, whatever happens. -/
theorem spent (h : Courses p w w') (t : w.Tallied) {event : KernelId × Nat} (s : w.Spent event) :
    w'.Spent event := by
  obtain ⟨watched, k, hk, hs⟩ := s
  obtain ⟨k', hk', hc⟩ := h.forth hk
  exact ⟨watched, k', hk', hc.spent (t _ _ _ hk).2 hs⟩

end Courses

end World

end EventSim
