import EventSim.Proofs.World.Happenings

/-!
# Sound worlds

A world is `Sound` if the books of every kernel in it agree, every saved handle is known to the
kernel that it names, and only built-in backends are registered.  `Sound.happens` checks that each
happening keeps a world sound, unless a handle is forged or a backend of another make comes in.  As
all that a call does to a world is a sequence of happenings, this is the only place where the books
have to be looked into.
-/

namespace EventSim

namespace Happening

/-- No handle is put together by hand, and no backend but the built-in ones comes in. -/
def Lawful : Happening → Prop
  | .forged => False
  | .enlisted b | .did _ (.attached b) => b.isBuiltIn = true
  | _ => True

end Happening

namespace World

variable {w w' : World} {id : KernelId} {x : Happening}

/-- Every kernel knows where it is. -/
def Numbered (w : World) : Prop :=
  ∀ id watched k, w.engine? id = some (.builtIn watched k) → k.id = id

/-- The books of all kernels agree, and the handles and backends at hand are no danger to them. -/
structure Sound (w : World) : Prop where
  numbered : w.Numbered
  kernels : ∀ {id watched k}, w.engine? id = some (.builtIn watched k) → k.Sound
  /-- A saved handle names a kernel that was made. -/
  owners : ∀ p ∈ w.handles, ∀ id, p.2.owner = some id → id < w.engines.length
  known : ∀ p ∈ w.handles, ∀ {id watched k}, w.engine? id = some (.builtIn watched k) →
    p.2.owner = some id → k.Knows p.2
  backends : ∀ p ∈ w.registry.schedulers, p.2.isBuiltIn = true

theorem numbered_pristine (environment : Option String) : (pristine environment).Numbered :=
  fun _ _ _ h => by cases h

theorem sound_pristine (environment : Option String) : (pristine environment).Sound where
  numbered := numbered_pristine environment
  kernels := fun h => by cases h
  owners := fun _ h => by cases h
  known := fun _ h => by cases h
  backends := by
    show ∀ p ∈ Registry.builtIn.schedulers, p.2.isBuiltIn = true
    decide

/-! ### Kernels -/

@[simp] theorem length_setEngine (w : World) (id : KernelId) (e : Engine Action) :
    (w.setEngine id e).engines.length = w.engines.length := List.length_set

/-- What is behind an identity after a kernel was set. -/
theorem engine?_setEngine {j : KernelId} {e e' : Engine Action}
    (h : (w.setEngine id e).engine? j = some e') :
    id = j ∧ e' = e ∨ id ≠ j ∧ w.engine? j = some e' := by
  by_cases hj : id = j
  · subst hj
    have hlt : id < w.engines.length := by
      rw [← length_setEngine w id e]
      exact (List.getElem?_eq_some_iff.1 h).1
    have hself : (w.setEngine id e).engine? id = some e := List.getElem?_set_self hlt
    exact .inl ⟨rfl, Option.some.inj (h.symm.trans hself)⟩
  · rw [engine?_setEngine_ne e hj] at h
    exact .inr ⟨hj, h⟩

/-- A new kernel is behind the next identity, the others are where they were. -/
theorem engine?_append {j : KernelId} {e e' : Engine Action}
    (h : (w.engines ++ [e])[j]? = some e') :
    w.engine? j = some e' ∨ j = w.engines.length ∧ e' = e := by
  rcases Nat.lt_trichotomy j w.engines.length with hj | rfl | hj
  · rw [List.getElem?_append_left hj] at h
    exact .inl h
  · rw [List.getElem?_concat_length] at h
    exact .inr ⟨rfl, (Option.some.inj h).symm⟩
  · have hlen : (w.engines ++ [e]).length ≤ j := by
      rw [List.length_append]
      exact hj
    rw [List.getElem?_eq_none hlen] at h
    cases h

/-! ### Identities -/

theorem Numbered.aside (hn : w.Numbered) (h : w.Aside w') : w'.Numbered := by
  intro id watched k hk
  rw [engine?, h.engines] at hk
  exact hn id watched k hk

theorem Numbered.made (hn : w.Numbered) (spec : KernelSpec) :
    { w with engines := w.engines ++ [Engine.make w.engines.length spec] }.Numbered := by
  intro id watched k hk
  rcases engine?_append hk with hk | ⟨rfl, he⟩
  · exact hn id watched k hk
  · cases spec <;> cases he <;> rfl

theorem Numbered.did {watched : Bool} {k k' : Kernel Action} {d : Deed Action} (hn : w.Numbered)
    (hk : w.engine? id = some (.builtIn watched k)) (hd : k.Does d k') :
    (w.setEngine id (.builtIn watched k')).Numbered := by
  intro j watched' k'' hk'
  rcases engine?_setEngine hk' with ⟨rfl, he⟩ | ⟨-, hk'⟩
  · cases he
    exact hd.id_eq.trans (hn _ _ _ hk)
  · exact hn j watched' k'' hk'

/-- What holds after changes aside and after a deed holds after a scheduler was attached. -/
theorem attach_induction {I : World → Prop} {b : Backend} (hw : I w)
    (haside : ∀ v v' : World, v.Aside v' → I v → I v')
    (hdid : ∀ (v : World) watched k, v.engine? id = some (.builtIn watched k) → I v →
      I (v.setEngine id (.builtIn watched (k.attach b)))) : I (w.attach id b) := by
  have h : Evolves (fun x => x = .aside ∨ x = .did id (.attached b)) w (w.attach id b) :=
    evolves_attach (.inl rfl) (.inr rfl) w
  refine h.keeps (fun v x v' hx hm hv => ?_) hw
  rcases hm with rfl | rfl
  · cases hx with
    | aside ha => exact haside v v' ha hv
  · cases hx with
    | did hk hd =>
      cases hd with
      | issued hi => cases hi
      | attached => exact hdid v _ _ hk hv
    | issued name hk hi => cases hi

theorem Numbered.attach (hn : w.Numbered) (id : KernelId) (b : Backend) :
    (w.attach id b).Numbered :=
  attach_induction (I := Numbered) hn (fun _ _ ha hv => hv.aside ha)
    fun _ _ k hk hv => hv.did hk (.attached k b)

/-- Whatever happens, kernels stay where they are. -/
theorem Numbered.happens (hn : w.Numbered) (h : w.Happens x w') : w'.Numbered := by
  cases h with
  | aside ha => exact hn.aside ha
  | made spec => exact hn.made spec
  | did hk hd hp => exact hn.did hk hd
  | issued name hk hi => exact hn.did hk (.issued hi)
  | @occupied id name b hs hb => exact Numbered.attach (w := { w with slot := some id }) hn id b
  | configured hb => exact hn.attach _ _
  | _ => exact hn

/-! ### Happenings -/

theorem Sound.aside (s : w.Sound) (h : w.Aside w') : w'.Sound := by
  have he (id : KernelId) : w'.engine? id = w.engine? id := by rw [engine?, h.engines]; rfl
  refine ⟨s.numbered.aside h, fun hk => ?_, fun p hp => ?_, fun p hp {id watched k} hk => ?_,
    fun p hp => ?_⟩
  · rw [he] at hk
    exact s.kernels hk
  · rw [h.handles] at hp
    rw [h.engines]
    exact s.owners p hp
  · rw [h.handles] at hp
    rw [he] at hk
    exact s.known p hp hk
  · rw [h.schedulers] at hp
    exact s.backends p hp

theorem Sound.slot (s : w.Sound) (slot : Option KernelId) (printers : Printers) :
    { w with slot := slot, printers := printers }.Sound :=
  ⟨s.numbered, s.kernels, s.owners, s.known, s.backends⟩

theorem Sound.made (s : w.Sound) (spec : KernelSpec) :
    { w with engines := w.engines ++ [Engine.make w.engines.length spec] }.Sound := by
  refine ⟨s.numbered.made spec, fun {id watched k} hk => ?_, fun p hp id ho => ?_,
    fun p hp {id watched k} hk ho => ?_, s.backends⟩
  · rcases engine?_append hk with hk | ⟨rfl, he⟩
    · exact s.kernels hk
    · cases spec <;> cases he <;> exact Kernel.sound_fresh _ _
  · rw [List.length_append]
    exact Nat.lt_add_right _ (s.owners p hp id ho)
  · rcases engine?_append hk with hk | ⟨rfl, -⟩
    · exact s.known p hp hk ho
    · exact absurd (s.owners p hp _ ho) (Nat.lt_irrefl _)

/-- A handle that is kept may be used on every kernel. -/
theorem Sound.knows {watched : Bool} {k : Kernel Action} {h : Handle} (s : w.Sound)
    (hk : w.engine? id = some (.builtIn watched k)) (hh : w.Keeps h) (hi : k.Issued h) :
    k.Knows h := by
  have ho : h.owner = some id := hi.trans (congrArg some (s.numbered _ _ _ hk))
  rcases hh with rfl | ⟨p, hp, rfl⟩
  · cases ho
  · exact s.known p hp hk ho

theorem Sound.admits {watched : Bool} {k : Kernel Action} {d : Deed Action} (s : w.Sound)
    (hk : w.engine? id = some (.builtIn watched k)) (hp : w.Permits d)
    (hd : (Happening.did id d).Lawful) : k.Admits d := by
  cases d with
  | removed h => exact s.knows hk hp
  | cancelled h => exact s.knows hk hp
  | attached b => exact hd
  | _ => trivial

theorem Sound.did {watched : Bool} {k k' : Kernel Action} {d : Deed Action} (s : w.Sound)
    (hk : w.engine? id = some (.builtIn watched k)) (hd : k.Does d k') (ha : k.Admits d) :
    (w.setEngine id (.builtIn watched k')).Sound := by
  have hs := s.kernels hk
  refine ⟨s.numbered.did hk hd, fun {j watched' k''} hk' => ?_, fun p hp j ho => ?_,
    fun p hp {j watched' k''} hk' ho => ?_, s.backends⟩
  · rcases engine?_setEngine hk' with ⟨rfl, he⟩ | ⟨-, hk'⟩
    · cases he
      exact hs.does hd ha
    · exact s.kernels hk'
  · rw [length_setEngine]
    exact s.owners p hp j ho
  · rcases engine?_setEngine hk' with ⟨rfl, he⟩ | ⟨-, hk'⟩
    · cases he
      exact (s.known p hp hk ho).does hs.toConsistent hd
    · exact s.known p hp hk' ho

theorem Sound.save {name : HandleName} {h : Handle} (s : w.Sound)
    (ho : ∀ id, h.owner = some id → id < w.engines.length)
    (hk : ∀ {id watched k}, w.engine? id = some (.builtIn watched k) → h.owner = some id →
      k.Knows h) : (w.save name h).Sound := by
  refine ⟨s.numbered, s.kernels, fun p hp => ?_, fun p hp {id watched k} hk' => ?_, s.backends⟩
  · rcases List.mem_cons.1 hp with rfl | hp
    · exact ho
    · exact s.owners p hp
  · rcases List.mem_cons.1 hp with rfl | hp
    · exact hk hk'
    · exact s.known p hp hk'

theorem Sound.issued {watched : Bool} {k k' : Kernel Action} {d : Deed Action} {h : Handle}
    (s : w.Sound) (name : HandleName) (hk : w.engine? id = some (.builtIn watched k))
    (hi : k.Issues d h k') : ((w.setEngine id (.builtIn watched k')).save name h).Sound := by
  obtain ⟨hknown, howner⟩ := (s.kernels hk).knows_issued hi
  rw [(Kernel.Does.issued hi).id_eq, s.numbered _ _ _ hk] at howner
  have ha : k.Admits d := by cases hi <;> trivial
  refine (s.did hk (.issued hi) ha).save (fun j hj => ?_) fun {j watched' k''} hk' hj => ?_
  · rw [howner] at hj
    cases hj
    rw [length_setEngine]
    exact (List.getElem?_eq_some_iff.1 hk).1
  · rw [howner] at hj
    cases hj
    rw [engine?_setEngine_self hk] at hk'
    cases hk'
    exact hknown

/-- A scheduler that was looked up by its name is a built-in one. -/
theorem Sound.isBuiltIn {name : String} {b : Backend} (s : w.Sound)
    (h : w.registry.scheduler name = .ok b) : b.isBuiltIn = true := by
  unfold Registry.scheduler NameTable.find? at h
  split at h
  · rename_i hl
    cases h
    obtain ⟨l, l', he, -⟩ := List.lookup_eq_some_iff.1 hl
    exact s.backends (name, b) (by simp [he])
  · cases h

theorem Sound.attach {b : Backend} (s : w.Sound) (hb : b.isBuiltIn = true) (id : KernelId) :
    (w.attach id b).Sound :=
  attach_induction (I := Sound) s (fun _ _ ha hv => hv.aside ha)
    fun _ _ k hk hv => hv.did hk (.attached k b) hb

theorem mem_register {α : Type} {name : String} {a : α} {t : NameTable α} {p : String × α}
    (h : p ∈ NameTable.register name a t) : p = (name, a) ∨ p ∈ t := by
  induction t with
  | nil =>
    rw [NameTable.register, List.mem_singleton] at h
    exact .inl h
  | cons q rest ih =>
    obtain ⟨n, b⟩ := q
    rw [NameTable.register] at h
    split at h
    · exact List.mem_cons.1 h
    · split at h
      · rcases List.mem_cons.1 h with h | h
        · exact .inl h
        · exact .inr (List.mem_cons_of_mem _ h)
      · rcases List.mem_cons.1 h with h | h
        · exact .inr (h ▸ List.mem_cons_self)
        · exact (ih h).imp_right (List.mem_cons_of_mem _)

/-- **Whatever happens lawfully keeps a world sound.** -/
theorem Sound.happens (s : w.Sound) (h : w.Happens x w') (hx : x.Lawful) : w'.Sound := by
  cases h with
  | aside ha => exact s.aside ha
  | made spec => exact s.made spec
  | did hk hd hp => exact s.did hk hd (s.admits hk hp hx)
  | issued name hk hi => exact s.issued name hk hi
  | blank name => exact s.save (fun _ ho => by cases ho) fun _ ho => by cases ho
  | forged => exact hx.elim
  | enlisted name b =>
    refine ⟨s.numbered, s.kernels, s.owners, s.known, fun p hp => ?_⟩
    rcases mem_register hp with rfl | hp
    · exact hx
    · exact s.backends p hp
  | @occupied id name b hs hb =>
    have h := ((s.slot (some id) w.printers).attach (s.isBuiltIn hb) id)
    exact h.slot _ .standard
  | configured hb => exact s.attach (s.isBuiltIn hb) _
  | vacated => exact s.slot none w.printers
  | unprinted => exact s.slot w.slot .none
  | printed p => exact s.slot w.slot p

theorem Sound.evolves (s : w.Sound) (h : Evolves Happening.Lawful w w') : w'.Sound :=
  h.keeps (fun _ _ _ hx hp hv => hv.happens hx hp) s

end World

end EventSim
