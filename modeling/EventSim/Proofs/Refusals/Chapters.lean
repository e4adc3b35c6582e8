import EventSim.Proofs.Refusals.Machines

/-!
# Chapters without refused calls

**What is told of a step is told of the machine without refused calls as well** (`Purges.chapter`),
unless a call is refused in it: such a chapter tells of nothing but that the action of the call is
given up (`Refuses.chapter`), and the other machine has none (`Refuses.purged_chapter`).
-/

namespace EventSim

namespace World

variable {T : Replies} {b c : List Entry} {w v : World}

theorem Purges.newsSince (m : Purges T b c w v) : v.newsSince c = w.newsSince b := by
  obtain ⟨hj⟩ := m
  rw [newsSince_append hj, newsSince_append rfl]

/-- One action is given up once. -/
theorem filter_releases (a : Option Action) :
    (releases a.toList).reverse.filter Journal.isRelease = releases a.toList := by
  rw [List.filter_eq_self.2 fun e => isRelease_of_mem_releases]
  rcases a with _ | ⟨_ | _, _⟩ <;> rfl

end World

/-! ### What happens -/

/-- If the chapter tells of a call that is refused, the call may be refused, and its action is given
up, once. -/
def Chapter.Forgoes (x : Chapter) : Prop :=
  ∀ o c left e, x.incident = some (.ended o c left (.ok (.refused e))) →
    c.Refusable ∧ x.told.filter Journal.isRelease = World.releases c.action?.toList

theorem Chapter.purged_of_none {T : Replies} {x : Chapter} (h : x.incident = none) :
    x.purged T = some x := by
  rw [purged, h]

namespace Incident

theorem purged_of_kept {T : Replies} {origin : Origin} {call : Command} {left : List Command}
    {reply : Except Panic Reply} (h : ∀ e, reply ≠ .ok (.refused e)) :
    (ended origin call left reply).purged T =
      some (.ended origin (call.purged T reply.toOption) (purgedAll T origin left) reply) := by
  rw [purged]
  exact h

/-- The event that starts is the same. -/
theorem onset?_of_purged {T : Replies} {i j : Incident} (h : i.purged T = some j) :
    j.onset? = i.onset? := by
  cases i with
  | started id i now context =>
    cases h
    rw [onset?, onset?, Item.purged, Payload.action?_map, Option.map_map]
    rfl
  | ended origin call left reply =>
    unfold purged at h
    dsimp only at h
    split at h
    · cases h
    · cases h
      rfl
  | returned =>
    cases h
    rfl

end Incident

namespace Machine

variable {T : Replies} {events : List (KernelId × Nat)} {b c : List Entry} {m n : Machine}

namespace Purges

theorem world (h : Purges T events b c m n) : m.world.Purges T b c n.world := by
  obtain ⟨hm⟩ := h
  exact hm

theorem stack (h : Purges T events b c m n) : n.stack = purgedFrames T events m.stack := by
  obtain ⟨-⟩ := h
  rfl

theorem result_eq (h : Purges T events b c m n) : n.result = m.result := by
  obtain ⟨-⟩ := h
  rfl

theorem rebase (h : Purges T events b c m n) :
    Purges T events m.world.journal n.world.journal m n := by
  obtain ⟨hm⟩ := h
  exact .mk hm.rebase

theorem stack_iff (h : Purges T events b c m n) : n.stack = [] ↔ m.stack = [] := by
  rw [h.stack]
  rcases m.stack with _ | ⟨f, rest⟩
  · rfl
  · cases f <;> exact ⟨nofun, nofun⟩

/-- The same call comes back. -/
theorem returned? (s : List Frame) :
    (Machine.returned? events s).map (Incident.purged T) =
      (Machine.returned? events (purgedFrames T events s)).map some := by
  rcases s with _ | ⟨f, rest⟩
  · rfl
  · cases f <;> rfl

/-- A call that is not refused ends alike. -/
theorem incident?_calling {w v : World} {reporting : Bool} {x : Command} {left : List Command}
    {rest : List Frame} {result : Option (Except Panic Reply)} (h : w.Purges T b c v)
    (hx : x.OnKernel) (hT : Machine.Heeds ⟨w, .body reporting (x :: left) :: rest, result⟩ T events)
    (hr : ¬ Machine.Refuses ⟨w, .body reporting (x :: left) :: rest, result⟩) :
    (Machine.incident? ⟨w, .body reporting (x :: left) :: rest, result⟩ events).map
        (Incident.purged T) =
      (Machine.incident? ⟨v, purgedFrames T events (.body reporting (x :: left) :: rest), result⟩
        events).map some := by
  have hreply := hT reporting x left rest rfl
  rw [purgedFrames, purgedAll_of_kept (hT.kept hr rfl)]
  dsimp only [Machine.incident?]
  rw [Command.drives_purged]
  cases hd : x.drives with
  | true => rfl
  | false =>
    have hrefused (e : SimError) : (w.perform x).1 ≠ .ok (.refused e) := fun hp =>
      hr ⟨reporting, x, left, rest, e, rfl, hd, hp⟩
    rw [hd] at hreply
    simp only [Bool.false_eq_true, if_false] at hreply ⊢
    have hend := (World.PurgesEnd.perform h hx hrefused).reply
    rw [hreply, hend, Option.map_some, Option.map_some, Incident.purged_of_kept hrefused]

/-- The same event runs next. -/
theorem incident?_running {w v : World} {rest : List Frame}
    {result : Option (Except Panic Reply)} (h : w.Purges T b c v) (id : KernelId) :
    (Machine.incident? ⟨w, .running id :: rest, result⟩ events).map (Incident.purged T) =
      (Machine.incident? ⟨v, .running id :: purgedFrames T events rest, result⟩ events).map
        some := by
  dsimp only [Machine.incident?]
  rw [h.engine?]
  cases w.engine? id with
  | none => exact returned? rest
  | some e =>
    cases e with
    | fixed k => exact returned? rest
    | builtIn watched k =>
      dsimp only [Option.map_some, Engine.purged, Kernel.purged]
      have hd := k.dequeue_recast (g := fun uid a => a.purged T (k.id, uid))
      generalize hq : k.dequeue = d at hd
      generalize (k.recast fun uid a => a.purged T (k.id, uid)).dequeue = d' at hd
      cases hd with
      | idle => exact returned? rest
      | skipped | past => rfl
      | started e k' =>
        have hitem : e.item.purged T k'.id =
            (e.recastAction fun uid a => a.purged T (k.id, uid)).item := by
          rw [(Kernel.Does.started hq).id_eq]
          rfl
        exact congrArg (some <| some <| Incident.started k'.id · k'.now k'.context) hitem

/-- The same teardown event runs next. -/
theorem incident?_destroying {w v : World} {rest : List Frame}
    {result : Option (Except Panic Reply)} (h : w.Purges T b c v) (id : KernelId) :
    (Machine.incident? ⟨w, .destroying id :: rest, result⟩ events).map (Incident.purged T) =
      (Machine.incident? ⟨v, .destroying id :: purgedFrames T events rest, result⟩ events).map
        some := by
  dsimp only [Machine.incident?]
  rw [h.engine?]
  cases w.engine? id with
  | none => exact returned? rest
  | some e =>
    cases e with
    | fixed k => exact returned? rest
    | builtIn watched k =>
      dsimp only [Option.map_some, Engine.purged, Kernel.purged]
      rw [Kernel.popTeardown_recast]
      cases hq : k.popTeardown with
      | none => exact returned? rest
      | some r =>
        obtain ⟨e, k'⟩ := r
        have hitem : e.item.purged T k'.id =
            (e.recast fun uid a => a.purged T (k.id, uid)).item := by
          rw [(Kernel.Does.unwound hq).id_eq]
          rfl
        exact congrArg (some <| some <| Incident.started k'.id · k'.now k'.context) hitem

/-- **The same happens**, unless a call is refused. -/
theorem incident? (h : Purges T events b c m n) (ho : m.OnKernel) (hT : m.Heeds T events)
    (hr : ¬ m.Refuses) :
    (m.incident? events).map (Incident.purged T) = (n.incident? events).map some := by
  obtain ⟨hm⟩ := h
  rename_i w v s result
  rcases s with _ | ⟨f, rest⟩
  · rfl
  · have hf := (List.forall_mem_cons.1 ho.waiting).1
    cases f with
    | body reporting left =>
      rcases left with _ | ⟨x, left⟩
      · rw [purgedFrames, purgedAll]
        rfl
      · exact incident?_calling hm (List.forall_mem_cons.1 hf).1.self hT hr
    | running id => exact incident?_running hm id
    | destroying id => exact incident?_destroying hm id
    | answering => rfl
    | clearing | scenario => exact hf.elim

/-- The actions that are on the stacks belong to the same events. -/
theorem events_eq (h : Purges T events b c m n) (ho : m.OnKernel) (hT : m.Heeds T events)
    (hr : ¬ m.Refuses) : n.events events = m.events events := by
  have honset : (n.incident? events).bind Incident.onset? =
      (m.incident? events).bind Incident.onset? := by
    have hi := h.incident? ho hT hr
    cases hm : m.incident? events with
    | none =>
      rw [hm] at hi
      rw [Option.map_eq_none_iff.1 hi.symm]
    | some i =>
      rw [hm] at hi
      obtain ⟨j, hn, hj⟩ := Option.map_eq_some_iff.1 hi.symm
      rw [hn]
      exact Incident.onset?_of_purged hj.symm
  obtain ⟨hm⟩ := h
  rename_i w v s result
  unfold Machine.events
  rw [honset]
  rcases s with _ | ⟨f, rest⟩
  · rfl
  · cases f with
    | body reporting left =>
      rcases left with _ | ⟨x, left⟩
      · rw [purgedFrames, purgedAll]
      · rw [purgedFrames, purgedAll_of_kept (hT.kept hr rfl)]
    | _ => rfl

/-- **A chapter without refused calls is told of the second machine.** -/
theorem chapter (h : Purges T events b c m n) (hne : m.stack ≠ [])
    (ho : m.OnKernel) (hT : m.Heeds T events) (hr : ¬ m.Refuses) :
    (m.chapter events).purged T = some (n.chapter events) := by
  have hnews : n.step.world.newsSince n.world.journal = m.step.world.newsSince m.world.journal :=
    (h.rebase.step hne ho hT hr).world.newsSince
  have hi := h.incident? ho hT hr
  cases hm : m.incident? events with
  | none =>
    rw [hm] at hi
    have hn : n.incident? events = none := Option.map_eq_none_iff.1 hi.symm
    rw [Chapter.purged_of_none hm, Machine.chapter, Machine.chapter, hm, hn, hnews]
  | some i =>
    rw [hm] at hi
    obtain ⟨j, hn, hj⟩ := Option.map_eq_some_iff.1 hi.symm
    rw [Machine.chapter, Machine.chapter, hm, hn, hnews, Chapter.purged]
    show (i.purged T).map _ = _
    rw [← hj]
    rfl

end Purges

/-! ### Steps in which a call is refused -/

/-- The chapter of a refused call tells of the call, and that its action is given up. -/
theorem Refuses.chapter (hr : m.Refuses) (ho : m.OnKernel) (events : List (KernelId × Nat)) :
    ∃ x left e, x.Refusable ∧
      (m.chapter events).incident = some (.ended events.head? x left (.ok (.refused e))) ∧
      (m.chapter events).told.filter Journal.isRelease = World.releases x.action?.toList := by
  obtain ⟨reporting, x, left, rest, e, hstack, hd, hp, hx, hstep⟩ := hr.step ho
  refine ⟨x, left, e, hx, ?_, ?_⟩
  · show m.incident? events = _
    unfold Machine.incident?
    rw [hstack]
    dsimp only
    rw [hd, if_neg Bool.false_ne_true, hp]
  · have hnews : m.step.world.newsSince m.world.journal =
        ((if reporting then [Entry.did x.name (.refused e)] else []) ++
          World.releases x.action?.toList).reverse := by
      rw [hstep]
      exact World.newsSince_append (List.append_assoc ..).symm
    show (m.step.world.newsSince m.world.journal).filter _ = _
    rw [hnews, List.reverse_append, List.filter_append, World.filter_releases]
    cases reporting <;> exact List.append_nil _

/-- It has no place in the story of the machine without refused calls. -/
theorem Refuses.purged_chapter (hr : m.Refuses) (ho : m.OnKernel) :
    (m.chapter events).purged T = none := by
  obtain ⟨x, left, e, -, hi, -⟩ := hr.chapter ho events
  rw [Chapter.purged, hi]
  rfl

/-- A refused call may be refused, and gives its action up. -/
theorem forgoes_chapter (ho : m.OnKernel) (events : List (KernelId × Nat)) :
    (m.chapter events).Forgoes := by
  intro o c left e hi
  obtain ⟨reporting, rest, hs, hd, -, hp⟩ := incident?_eq_ended hi
  have hr : m.Refuses := ⟨reporting, c, left, rest, e, hs, hd, hp.symm⟩
  obtain ⟨x, left', e', hx, hi', htold⟩ := hr.chapter ho events
  cases hi.symm.trans hi'
  exact ⟨hx, htold⟩

theorem forgoes_story (ho : m.OnKernel) (i : Nat) (events : List (KernelId × Nat)) :
    ∀ x ∈ m.story i events, x.Forgoes := by
  induction i generalizing m events with
  | zero => exact fun x hx => (List.not_mem_nil hx).elim
  | succ i ih =>
    rw [story]
    split
    · exact fun x hx => (List.not_mem_nil hx).elim
    · exact List.forall_mem_cons.2 ⟨forgoes_chapter ho events, ih ho.step _⟩

end Machine

end EventSim
