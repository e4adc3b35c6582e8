import EventSim.Proofs.Facade.Serving
import EventSim.Proofs.Scenario.Calls

/-!
# Events that are booked in advance

The scenarios with many events schedule all of them before the first one runs, the event of number
`i` under the handle `i`.  A `Timetable` says when each is due and what it notes down.  Booking adds
an event to what will run, cancelling and removing take one out, and **a run notes down what is
left, in the order of the keys, and counts it** (`World.Booked.call_run`).
-/

namespace EventSim

/-- When the event of each number is due, and what it notes down. -/
structure Timetable where
  due : Nat → Time
  notes : Nat → List Sighting
  zero_le : ∀ i, .zero ≤ due i

namespace Timetable

variable (T : Timetable)

/-- The event of a number, if it is the first to be booked under that number. -/
def event (i : Nat) : Event (Payload Action) :=
  ⟨⟨T.due i, i + 1, noContext⟩, .act (.silent ((T.notes i).map .observe))⟩

/-- The event is booked. -/
def probe (i : Nat) : Scenario.Probe :=
  Scenario.scheduled (.after (T.due i)) i ((T.notes i).map .observe)

/-- The handle of the event on a kernel. -/
def handle (id : KernelId) (i : Nat) : Handle := .ofKey (some id) (T.event i).key

/-- What the events note down, one after the other. -/
def account (l : List Nat) : List Observation :=
  l.flatMap fun i => (T.notes i).map (Sighting.seen (T.due i) noContext)

theorem notesOf_event (l : List Nat) :
    Machine.notesOf (fun e => T.notes (e.key.uid - 1)) (l.map T.event) = T.account l := by
  rw [Machine.notesOf, List.flatMap_map]
  rfl

end Timetable

namespace Kernel

/-! ### Withdrawals -/

/-- All that has changed are the stored events and the two sets, and no event was added. -/
structure Withdraws (k k' : Kernel Action) : Prop where
  frame : k' = { k with
    pending := k'.pending, cancelled := k'.cancelled, scheduler := k'.scheduler }
  left : ∀ e ∈ k'.scheduler.toList, e ∈ k.scheduler.toList

theorem withdraws_cancel {k : Kernel Action} {h : Handle} (ht : h.kind = .timed) :
    k.Withdraws (k.cancel h).2 := by
  unfold Kernel.cancel
  rw [ht]
  split
  · dsimp only
    split <;> exact ⟨rfl, fun _ he => he⟩
  · exact ⟨rfl, fun _ he => he⟩

theorem withdraws_remove {k : Kernel Action} {h : Handle} (ht : h.kind = .timed) :
    k.Withdraws (k.remove h).2 := by
  have hleft (e : Event (Payload Action)) (he : e ∈ (k.scheduler.remove h.key).2.toList) :
      e ∈ k.scheduler.toList :=
    (Scheduler.perm_remove k.scheduler h.key).mem_iff.2 (List.mem_append_right _ he)
  unfold Kernel.remove
  rw [ht]
  split
  · dsimp only
    split
    · exact ⟨rfl, hleft⟩
    · exact ⟨rfl, fun _ he => he⟩
  · exact ⟨rfl, fun _ he => he⟩

/-! ### Bookings of a kernel -/

/-- The kernel has been told the first `n` events of a timetable and will run those of `l`. -/
structure Books (T : Timetable) (n : Nat) (l : List Nat) (k : Kernel Action) : Prop where
  sound : k.Sound
  now_eq : k.now = .zero
  context_eq : k.context = noContext
  teardowns_eq : k.teardowns = []
  executed_eq : k.executed = 0
  nextUid_eq : k.nextUid = n + 1
  agenda : k.agenda.Perm (l.map T.event)
  stored : ∀ e ∈ k.scheduler.toList, ∃ i, e = T.event i

variable {T : Timetable} {n i : Nat} {l l' : List Nat} {k : Kernel Action}

theorem books_fresh (T : Timetable) {b : Backend} (hb : b.isBuiltIn = true) (id : KernelId)
    (systemId : UInt32) : ((fresh id systemId).attach b).Books T 0 [] := by
  have s : ((fresh id systemId : Kernel Action).attach b).Sound := (sound_fresh id systemId).attach hb
  have hnone : ((fresh id systemId : Kernel Action).attach b).scheduler.toList = [] := by
    have hp := Scheduler.perm_migrate (sound_fresh id systemId : (_ : Kernel Action).Sound).distinct_keys b
    exact hp.eq_nil
  constructor
  case sound => exact s
  case agenda => rw [s.agenda_of_empty hnone]; exact .refl _
  case stored =>
    rw [hnone]
    exact fun e he => by cases he
  all_goals rfl

namespace Books

theorem perm (h : k.Books T n l) (hl : l.Perm l') : k.Books T n l' :=
  { h with agenda := h.agenda.trans (hl.map _) }

/-- The kernel is told the next event. -/
theorem schedule (h : k.Books T n l) :
    ∃ k', k.schedule (.after (T.due n)) (.silent ((T.notes n).map .observe)) =
        .ok (T.handle k.id n, k') ∧
      k'.id = k.id ∧ k'.Books T (n + 1) (n :: l) := by
  have hdue : k.now ≤ T.due n := h.now_eq ▸ T.zero_le n
  have hneg : ¬ (T.due n).isNegative = true := by
    have hz : 0 ≤ (T.due n).ticks := T.zero_le n
    simpa [Time.isNegative] using hz
  have hsum : k.now.checkedAdd (T.due n) = some (T.due n) := by
    rw [h.now_eq]
    exact Time.ofInt?_eq_some.2 (Int.zero_add _).symm
  have hkey : (⟨⟨T.due n, k.nextUid, k.context⟩, .act (.silent ((T.notes n).map .observe))⟩ :
      Event (Payload Action)) = T.event n := by
    rw [h.nextUid_eq, h.context_eq]
    rfl
  refine ⟨(k.store (T.due n) k.context (.act (.silent ((T.notes n).map .observe)))).2, ?_, rfl, ?_⟩
  · simp only [Kernel.schedule, Kernel.insert, hneg, hsum]
    rw [Timetable.handle, ← hkey]
    rfl
  · constructor
    case sound => exact h.sound.store hdue _ _
    case now_eq => exact h.now_eq
    case context_eq => exact h.context_eq
    case teardowns_eq => exact h.teardowns_eq
    case executed_eq => exact h.executed_eq
    case nextUid_eq => exact congrArg (· + 1) h.nextUid_eq
    case agenda =>
      have hp := h.sound.agenda_store hdue k.context (.act (.silent ((T.notes n).map .observe)))
      rw [hkey] at hp
      exact hp.trans (h.agenda.cons _)
    case stored =>
      intro e he
      have hp := h.sound.perm_store (T.due n) k.context
        (.act (.silent ((T.notes n).map .observe)))
      rw [hkey] at hp
      rcases List.mem_cons.1 (hp.mem_iff.1 he) with rfl | he
      · exact ⟨n, rfl⟩
      · exact h.stored e he

/-- Its handles are known to the kernel. -/
theorem knows (h : k.Books T n l) (hi : i < n) : k.Knows (T.handle k.id i) where
  minted := by
    rw [h.nextUid_eq]
    exact Nat.succ_lt_succ hi
  time _ e he hu := by
    obtain ⟨j, rfl⟩ := h.stored e he
    obtain rfl : j = i := Nat.succ.inj hu
    rfl

/-- Without an event, the others are left. -/
theorem filter_event (T : Timetable) (i : Nat) (l : List Nat) :
    (l.map T.event).filter (fun e => decide (e.key.uid ≠ (T.handle k.id i).uid)) =
      (l.filter (· ≠ i)).map T.event := by
  rw [List.filter_map]
  congr 1
  refine List.filter_congr fun j _ => ?_
  show decide (j + 1 ≠ i + 1) = decide (j ≠ i)
  rw [decide_eq_decide]
  omega

/-- An event is withdrawn. -/
theorem withdraw {k' : Kernel Action} (h : k.Books T n l) (s : k'.Sound) (hw : k.Withdraws k')
    (ha : k'.agenda = k.agenda.filter fun e => decide (e.key.uid ≠ (T.handle k.id i).uid)) :
    k'.Books T n (l.filter (· ≠ i)) := by
  have hp := h.agenda.filter fun e => decide (e.key.uid ≠ (T.handle k.id i).uid)
  rw [filter_event] at hp
  constructor
  case sound => exact s
  case agenda => exact ha ▸ hp
  case stored => exact fun e he => h.stored e (hw.left e he)
  case now_eq => exact (congrArg Kernel.now hw.frame).trans h.now_eq
  case context_eq => exact (congrArg Kernel.context hw.frame).trans h.context_eq
  case teardowns_eq => exact (congrArg Kernel.teardowns hw.frame).trans h.teardowns_eq
  case executed_eq => exact (congrArg Kernel.executed hw.frame).trans h.executed_eq
  case nextUid_eq => exact (congrArg Kernel.nextUid hw.frame).trans h.nextUid_eq

theorem cancel (h : k.Books T n l) (i : Nat) :
    (k.cancel (T.handle k.id i)).2.Books T n (l.filter (· ≠ i)) :=
  h.withdraw h.sound.cancel (withdraws_cancel rfl) (h.sound.agenda_cancel rfl rfl)

theorem remove (h : k.Books T n l) (hi : i < n) :
    (k.remove (T.handle k.id i)).2.Books T n (l.filter (· ≠ i)) :=
  h.withdraw (h.sound.remove fun _ => h.knows hi) (withdraws_remove rfl)
    (h.sound.agenda_remove rfl (h.knows hi) rfl)

theorem notes (h : k.Books T n l) : k.Notes fun e => T.notes (e.key.uid - 1) := by
  intro e he
  obtain ⟨i, rfl⟩ := h.stored e he
  rfl

/-- What is left runs in the order of the keys. -/
theorem agenda_eq (h : k.Books T n l) (hl : l'.Perm l)
    (hs : (l'.map T.event).Pairwise fun x y => x.key.Before y.key) : k.agenda = l'.map T.event :=
  eq_of_perm_of_before (h.agenda.trans (hl.symm.map _)) k.pairwise_agenda hs

end Books

end Kernel

/-! ### Probes that are content -/

namespace World

/-- All probes are content with the replies to them, which leave another world. -/
def Passes (w : World) (l : List Scenario.Probe) (replies : List Reply) (v : World)
    (replies' : List Reply) : Prop :=
  ∀ left, w.follow (l ++ left) replies = v.follow left replies'

variable {w v u : World} {l l' : List Scenario.Probe} {replies replies' replies'' : List Reply}

theorem Passes.nil (w : World) (replies : List Reply) : w.Passes [] replies w replies :=
  fun _ => rfl

theorem Passes.append (h : w.Passes l replies v replies') (g : v.Passes l' replies' u replies'') :
    w.Passes (l ++ l') replies u replies'' := by
  intro left
  rw [List.append_assoc, h, g]

theorem Passes.single {probe : Scenario.Probe} {x : Reply} (hc : w.call probe.command = (.ok x, v))
    (hj : probe.judge (x :: replies) = none) : w.Passes [probe] replies v (x :: replies) := by
  intro left
  rw [List.singleton_append, World.follow, hc]
  dsimp only
  rw [hj]

theorem Passes.cons {probe : Scenario.Probe} {x : Reply} (hc : w.call probe.command = (.ok x, v))
    (hj : probe.judge (x :: replies) = none) (h : v.Passes l (x :: replies) u replies') :
    w.Passes (probe :: l) replies u replies' :=
  (Passes.single hc hj).append h

/-- A plan whose probes are all content has its outcome. -/
theorem Passes.follow (h : w.Passes l replies v replies') :
    w.follow l replies = (.ok (.ok (Scenario.outcome replies')), v) := by
  have hend := h []
  rwa [List.append_nil] at hend

end World

/-! ### Bookings with the facade -/

namespace World

/-- The facade has a kernel with such bookings, their handles are saved, and nothing was noted. -/
structure Booked (T : Timetable) (n : Nat) (l : List Nat) (w : World) (k : Kernel Action) :
    Prop where
  serves : w.Serves k
  books : k.Books T n l
  handle : ∀ i < n, w.handle (.numbered i) = T.handle k.id i
  observed : w.observed = []

variable {T : Timetable} {n i : Nat} {l l' : List Nat} {w : World} {k : Kernel Action}
  {replies : List Reply}

namespace Booked

theorem perm (h : w.Booked T n l k) (hl : l.Perm l') : w.Booked T n l' k :=
  { h with books := h.books.perm hl }

/-- The next event is booked. -/
theorem call_probe (h : w.Booked T n l k) :
    ∃ v k', w.call (T.probe n).command = (.ok (.handle (T.handle k.id n)), v) ∧
      v.Booked T (n + 1) (n :: l) k' := by
  obtain ⟨k', hk, hid, hbooks⟩ := h.books.schedule
  obtain ⟨v, hcall, hserves, hsur⟩ :=
    h.serves.call_schedule (.numbered n) hk hid hbooks.sound
  have hhandles : v.handles = (.numbered n, T.handle k.id n) :: w.handles :=
    congrArg Surroundings.handles hsur
  have hobserved : v.observed = w.observed := congrArg Surroundings.observed hsur
  refine ⟨v, k', hcall, hserves, hbooks, fun i hi => ?_, hobserved.trans h.observed⟩
  rw [World.handle, hhandles, hid]
  rcases Nat.lt_or_eq_of_le (Nat.le_of_lt_succ hi) with hlt | rfl
  · have hne : (HandleName.numbered i == .numbered n) = false := by
      simpa using Nat.ne_of_lt hlt
    rw [List.lookup_cons, hne]
    exact h.handle i hlt
  · rw [List.lookup_cons_self]
    rfl

/-- All of the events are booked. -/
theorem passes_probes (h : w.Booked T 0 [] k) (n : Nat) (replies : List Reply) :
    ∃ v k' replies', w.Passes ((List.range n).map T.probe) replies v replies' ∧
      v.Booked T n (List.range n) k' := by
  induction n with
  | zero => exact ⟨w, k, replies, .nil w replies, h⟩
  | succ n ih =>
    obtain ⟨v, k', replies', hp, hv⟩ := ih
    obtain ⟨u, k'', hcall, hu⟩ := hv.call_probe
    have hlast : v.Passes [T.probe n] replies' u (.handle (T.handle k'.id n) :: replies') :=
      .single hcall rfl
    refine ⟨u, k'', .handle (T.handle k'.id n) :: replies', ?_, hu.perm ?_⟩
    · rw [List.range_succ, List.map_append]
      exact hp.append hlast
    · rw [List.range_succ]
      exact (List.perm_append_singleton n _).symm

/-- Events were withdrawn, and the surroundings are as they were. -/
theorem withdrawn {v : World} {k' : Kernel Action} (h : w.Booked T n l k) (hs : v.Serves k')
    (hid : k'.id = k.id) (hb : k'.Books T n l') (hsur : v.surroundings = w.surroundings) :
    v.Booked T n l' k' where
  serves := hs
  books := hb
  handle i hi := by
    have hhandles : v.handles = w.handles := congrArg Surroundings.handles hsur
    rw [World.handle, hhandles, hid]
    exact h.handle i hi
  observed := (congrArg Surroundings.observed hsur).trans h.observed

/-- An event meets its fate. -/
theorem passes_fate (h : w.Booked T n l k) (hi : i < n) (fate : Random.Fate)
    (replies : List Reply) :
    ∃ v k' replies', w.Passes (Scenario.fateCommand i fate).toList replies v replies' ∧
      v.Booked T n (l.filter fun j => j ≠ i ∨ fate = .kept) k' := by
  cases fate with
  | kept =>
    refine ⟨w, k, replies, .nil w replies, ?_⟩
    simpa using h
  | cancelled =>
    obtain ⟨v, hcall, hserves, hsur⟩ := h.serves.call_cancel (.numbered i)
    have hid : (k.cancel (w.handle (.numbered i))).2.id = k.id :=
      (Kernel.Does.cancelled k _).id_eq
    refine ⟨v, _, _, Passes.single hcall rfl, h.withdrawn hserves hid ?_ hsur⟩
    rw [h.handle i hi]
    simpa using h.books.cancel i
  | removed =>
    have hknows : k.Knows (w.handle (.numbered i)) := h.handle i hi ▸ h.books.knows hi
    obtain ⟨v, hcall, hserves, hsur⟩ := h.serves.call_remove (.numbered i) fun _ => hknows
    have hid : (k.remove (w.handle (.numbered i))).2.id = k.id :=
      (Kernel.Does.removed k _).id_eq
    refine ⟨v, _, _, Passes.single hcall rfl, h.withdrawn hserves hid ?_ hsur⟩
    rw [h.handle i hi]
    simpa using h.books.remove hi

/-- The events meet their fates. -/
theorem passes_fates (h : w.Booked T n l k) (fate : Nat → Random.Fate) (is : List Nat)
    (hi : ∀ i ∈ is, i < n) (replies : List Reply) :
    ∃ v k' replies',
      w.Passes (is.filterMap fun i => Scenario.fateCommand i (fate i)) replies v replies' ∧
      v.Booked T n (l.filter fun j => j ∈ is → fate j = .kept) k' := by
  induction is generalizing w k l replies with
  | nil => exact ⟨w, k, replies, .nil w replies, by simpa using h⟩
  | cons i is ih =>
    obtain ⟨hi, his⟩ := List.forall_mem_cons.1 hi
    obtain ⟨v, k', replies', hp, hv⟩ := h.passes_fate hi (fate i) replies
    obtain ⟨u, k'', replies'', hp', hu⟩ := ih hv his replies'
    refine ⟨u, k'', replies'', ?_, ?_⟩
    · have happ := hp.append hp'
      rw [List.filterMap_cons]
      cases hc : Scenario.fateCommand i (fate i) <;> rw [hc] at happ <;> exact happ
    · have hl : (l.filter fun j => decide (j ≠ i ∨ fate i = .kept)).filter
          (fun j => decide (j ∈ is → fate j = .kept)) =
          l.filter fun j => decide (j ∈ i :: is → fate j = .kept) := by
        rw [List.filter_filter]
        refine List.filter_congr fun j _ => ?_
        rw [← Bool.decide_and, decide_eq_decide, List.mem_cons]
        by_cases hj : j = i
        · subst hj
          simp only [ne_eq, not_true_eq_false, false_or, true_or, true_imp_iff]
          exact ⟨And.right, fun h => ⟨fun _ => h, h⟩⟩
        · simp only [ne_eq, hj, not_false_eq_true, true_or, and_true, false_or]
      rw [hl] at hu
      exact hu

/-- **What is left runs in the order of the keys, is noted down and counted.** -/
theorem call_run (h : w.Booked T n l k) (hl : l'.Perm l)
    (hs : (l'.map T.event).Pairwise fun x y => x.key.Before y.key) :
    ∃ v k', w.call (.run .facade) = (.ok .done, v) ∧ v.Serves k' ∧ k'.teardowns = [] ∧
      k'.executed = l.length ∧ k'.now = Kernel.lastTime .zero (l'.map T.event) ∧
      v.observed.reverse = T.account l' := by
  obtain ⟨v, k', hcall, hserves, hran, hsur⟩ := h.serves.call_run h.books.notes
  have hagenda := h.books.agenda_eq hl hs
  have hexecuted := hran.executed_eq
  have hnow := hran.now_eq
  have hobserved : v.observed = (T.account l').reverse ++ w.observed := by
    rw [← T.notesOf_event, ← hagenda]
    exact congrArg Surroundings.observed hsur
  rw [hagenda, h.books.executed_eq, List.length_map, Nat.zero_add, hl.length_eq] at hexecuted
  rw [hagenda, h.books.now_eq] at hnow
  refine ⟨v, k', hcall, hserves, hran.teardowns_eq.trans h.books.teardowns_eq, hexecuted, hnow, ?_⟩
  rw [hobserved, h.observed, List.append_nil, List.reverse_reverse]

end Booked

end World

end EventSim
