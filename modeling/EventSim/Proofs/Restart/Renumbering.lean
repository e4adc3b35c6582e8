import EventSim.Facade

/-!
# Kernels under later numbers

Had `n` more kernels been made before it, a kernel would have another identity and issue handles
that name another owner.  In everything else it would be the same: `Kernel.later` and
`Engine.later` change the identity alone, and **every operation does to the later kernel what it
does to the earlier one** (`schedule_later`, `remove_later`, `dequeue_later` and so on).

A handle that was issued earlier than both, by a kernel of a number below `n`, means as little to
the later kernel as the handle of no kernel means to the earlier one.  `Handle.Matches` puts the two
side by side, and `Reply.Matches` the replies to calls about them, which are the same but for the
number of the event where a call is refused.
-/

namespace EventSim

variable {α : Type} {n : Nat} {stale : List Handle} {h g : Handle}

/-! ### Handles -/

/-- The handle under a later number of its kernel. -/
def Handle.later (n : Nat) (h : Handle) : Handle := { h with owner := h.owner.map (· + n) }

@[simp] theorem Handle.uid_later : (h.later n).uid = h.uid := rfl

@[simp] theorem Handle.kind_later : (h.later n).kind = h.kind := rfl

@[simp] theorem Handle.key_later : (h.later n).key = h.key := rfl

/-- The handles are of one event under two numbers of its kernel, or the one is of no kernel and
the other a stale one, of a kernel that is older than `n`. -/
inductive Handle.Matches (n : Nat) (stale : List Handle) : Handle → Handle → Prop
  | issued (h : Handle) : Matches n stale h (h.later n)
  | stale {g : Handle} :
      g ∈ stale → (∀ id, g.owner = some id → id < n) → Matches n stale .none g

/-! ### Replies -/

mutual

/-- The reply under a later number of the kernel. -/
def Reply.later (n : Nat) : Reply → Reply
  | .handle h => .handle (h.later n)
  | .shown h => .shown (h.later n)
  | .many replies => .many (laterAll n replies)
  | .identity id => .identity (id + n)
  | r => r

/-- The replies under a later number of the kernel. -/
def laterAll (n : Nat) : List Reply → List Reply
  | [] => []
  | r :: rest => r.later n :: laterAll n rest

end

/-- The replies are the same but for the number of the kernel and for the event that a stale handle
names when a call about it is refused.  What is reported of the trace and which printers are
installed is not compared. -/
inductive Reply.Matches (n : Nat) (stale : List Handle) : Reply → Reply → Prop
  | same (r : Reply) : Matches n stale r (r.later n)
  | expired {h g : Handle} : h.Matches n stale g →
      Matches n stale (.refused (.expiredHandle h.uid)) (.refused (.expiredHandle g.uid))
  | report (r r' : Report) : Matches n stale (.report r) (.report r')
  | installed (time node time' node' : Bool) :
      Matches n stale (.installed time node) (.installed time' node')

/-- Both end in the same panic, or in replies that match. -/
inductive Answer.Matches (n : Nat) (stale : List Handle) :
    Except Panic Reply → Except Panic Reply → Prop
  | panicked (p : Panic) : Matches n stale (.error p) (.error p)
  | replied {r r' : Reply} : r.Matches n stale r' → Matches n stale (.ok r) (.ok r')

theorem Answer.Matches.same (r : Reply) : Answer.Matches n stale (.ok r) (.ok (r.later n)) :=
  .replied (.same r)

/-! ### Kernels -/

/-- The kernel under a later number. -/
def Kernel.later (n : Nat) (k : Kernel α) : Kernel α := { k with id := k.id + n }

/-- What the run loop of the later kernel has to do next. -/
def Dequeued.later (n : Nat) : Dequeued α → Dequeued α
  | .idle => .idle
  | .skipped payload k => .skipped payload (k.later n)
  | .past payload k => .past payload (k.later n)
  | .started e k => .started e (k.later n)

namespace Kernel

variable {k : Kernel α}

@[simp] theorem now_later : (k.later n).now = k.now := rfl

@[simp] theorem stopping_later : (k.later n).stopping = k.stopping := rfl

@[simp] theorem scheduler_later : (k.later n).scheduler = k.scheduler := rfl

@[simp] theorem teardowns_later : (k.later n).teardowns = k.teardowns := rfl

@[simp] theorem pending_later : (k.later n).pending = k.pending := rfl

@[simp] theorem cancelled_later : (k.later n).cancelled = k.cancelled := rfl

/-- A stale handle is foreign to the later kernel. -/
theorem not_issued_later (hg : ∀ id, g.owner = some id → id < n) : ¬ (k.later n).Issued g :=
  fun hi => absurd (hg _ hi) (Nat.not_lt.2 (Nat.le_add_left n k.id))

theorem issued_later (m : h.Matches n stale g) : (k.later n).Issued g ↔ k.Issued h := by
  cases m with
  | issued h =>
    have hmap : h.owner.map (· + n) = some (k.id + n) ↔ h.owner = some k.id := by
      cases h.owner <;> simp
    exact hmap
  | stale _ hg => exact ⟨fun hi => absurd hi (not_issued_later hg), fun hi => by cases hi⟩

/-- Only its own handles count for the later kernel. -/
theorem eq_later_of_issued (m : h.Matches n stale g) (hi : k.Issued h) : g = h.later n := by
  cases m with
  | issued => rfl
  | stale => cases hi

theorem insert_later (context : Context) (delay : Time) (payload : Payload α) :
    (k.later n).insert context delay payload =
      (k.insert context delay payload).map fun r => (r.1.later n, r.2.later n) := by
  simp only [insert, now_later]
  split
  · rfl
  · split <;> rfl

theorem schedule_later (timing : Timing) (a : α) :
    (k.later n).schedule timing a =
      (k.schedule timing a).map fun r => (r.1.later n, r.2.later n) := by
  cases timing with
  | after delay => exact insert_later _ delay _
  | under context delay => exact insert_later context delay _
  | immediately | atTeardown => rfl

theorem stopAfter_later (delay : Time) :
    (k.later n).stopAfter delay =
      (k.stopAfter delay).map fun r => (r.1.later n, r.2.later n) := insert_later _ delay _

theorem remove_later (m : h.Matches n stale g) :
    (k.later n).remove g = ((k.remove h).1, (k.remove h).2.later n) := by
  by_cases hi : k.Issued h
  · obtain rfl := eq_later_of_issued m hi
    simp only [remove, if_pos hi, if_pos ((issued_later m).2 hi), Handle.kind_later,
      Handle.uid_later, Handle.key_later, pending_later, cancelled_later, scheduler_later]
    split
    · rfl
    · by_cases hu : h.uid ∈ k.pending ∨ h.uid ∈ k.cancelled
      · simp only [hu, if_true]
        rfl
      · simp only [hu, if_false]
        rfl
  · simp only [remove, if_neg hi, if_neg fun hg => hi ((issued_later m).1 hg)]

theorem cancel_later (m : h.Matches n stale g) :
    (k.later n).cancel g = ((k.cancel h).1, (k.cancel h).2.later n) := by
  by_cases hi : k.Issued h
  · obtain rfl := eq_later_of_issued m hi
    simp only [cancel, if_pos hi, if_pos ((issued_later m).2 hi), Handle.kind_later,
      Handle.uid_later, pending_later]
    split
    · rfl
    · by_cases hu : h.uid ∈ k.pending
      · simp only [hu, if_true]
        rfl
      · simp only [hu, if_false]
  · simp only [cancel, if_neg hi, if_neg fun hg => hi ((issued_later m).1 hg)]

theorem isExpired_later (m : h.Matches n stale g) :
    (k.later n).isExpired g = k.isExpired h := by
  unfold isExpired
  by_cases hi : k.Issued h
  · rw [if_pos hi, if_pos ((issued_later m).2 hi), eq_later_of_issued m hi]
    rfl
  · rw [if_neg hi, if_neg fun hg => hi ((issued_later m).1 hg)]

/-- What is live for the earlier kernel is live for the later one, and there is as much time left;
otherwise both refuse. -/
theorem delayLeft_later (m : h.Matches n stale g) :
    (k.later n).delayLeft g = k.delayLeft h ∨
      k.delayLeft h = .ok (.error (.expiredHandle h.uid)) ∧
        (k.later n).delayLeft g = .ok (.error (.expiredHandle g.uid)) := by
  unfold delayLeft
  rw [isExpired_later m]
  by_cases he : k.isExpired h = true
  · rw [if_pos he, if_pos he]
    exact .inr ⟨rfl, rfl⟩
  · have hi : k.Issued h := Decidable.by_contra fun hi => he (if_neg hi)
    rw [eq_later_of_issued m hi]
    exact .inl rfl

theorem dequeue_later : (k.later n).dequeue = k.dequeue.later n := by
  unfold dequeue
  simp only [stopping_later, scheduler_later]
  by_cases hs : k.stopping
  · simp only [hs, if_true]
    rfl
  · simp only [hs, Bool.false_eq_true, if_false]
    cases k.scheduler.pop with
    | none => rfl
    | some r =>
      obtain ⟨e, rest⟩ := r
      simp only [cancelled_later, now_later]
      by_cases hc : e.key.uid ∈ k.cancelled
      · simp only [hc, if_true]
        rfl
      · simp only [hc, if_false]
        by_cases ht : e.key.time < k.now
        · simp only [ht, if_true]
          rfl
        · simp only [ht, if_false]
          rfl

theorem popTeardown_later :
    (k.later n).popTeardown = k.popTeardown.map fun r => (r.1, r.2.later n) := by
  simp only [popTeardown, teardowns_later]
  split <;> rfl

end Kernel

/-! ### Engines -/

namespace Engine

/-- The engine under a later number. -/
def later (n : Nat) : Engine α → Engine α
  | builtIn watched k => builtIn watched (k.later n)
  | fixed k => fixed { k with id := k.id + n }

variable {e : Engine α}

theorem make_later (id : KernelId) (spec : KernelSpec) :
    (make (id + n) spec : Engine α) = (make id spec).later n := by
  cases spec <;> rfl

@[simp] theorem now_later : (e.later n).now = e.now := by cases e <;> rfl

@[simp] theorem executed_later : (e.later n).executed = e.executed := by cases e <;> rfl

@[simp] theorem context_later : (e.later n).context = e.context := by cases e <;> rfl

@[simp] theorem isWatched_later : (e.later n).isWatched = e.isWatched := by cases e <;> rfl

@[simp] theorem systemId_later : (e.later n).systemId = e.systemId := by cases e <;> rfl

@[simp] theorem held_later : (e.later n).held = e.held := by cases e <;> rfl

/-- The later engine with its kernel changed is the changed engine under its later number. -/
theorem onKernel_later {f : Kernel α → Kernel α} (hf : ∀ k, f (k.later n) = (f k).later n) :
    (e.later n).onKernel f = (e.onKernel f).later n := by
  cases e with
  | builtIn watched k => exact congrArg (builtIn watched) (hf k)
  | fixed => rfl

theorem schedule_later (timing : Timing) (a : α) :
    (e.later n).schedule timing a =
      ((e.schedule timing a).1.map (Handle.later n), (e.schedule timing a).2.1,
        (e.schedule timing a).2.2.later n) := by
  cases e with
  | builtIn watched k =>
    simp only [later, schedule, Kernel.schedule_later]
    cases k.schedule timing a <;> rfl
  | fixed => rfl

theorem stopAfter_later (delay : Time) :
    (e.later n).stopAfter delay =
      ((e.stopAfter delay).1.map (Handle.later n), (e.stopAfter delay).2.later n) := by
  cases e with
  | builtIn watched k =>
    simp only [later, stopAfter, Kernel.stopAfter_later]
    cases k.stopAfter delay <;> rfl
  | fixed => rfl

theorem remove_later (m : h.Matches n stale g) :
    (e.later n).remove g = ((e.remove h).1, (e.remove h).2.later n) := by
  cases e with
  | builtIn watched k => simp only [later, remove, Kernel.remove_later m]
  | fixed => rfl

theorem cancel_later (m : h.Matches n stale g) :
    (e.later n).cancel g = ((e.cancel h).1, (e.cancel h).2.later n) := by
  cases e with
  | builtIn watched k => simp only [later, cancel, Kernel.cancel_later m]
  | fixed => rfl

theorem isExpired_later (m : h.Matches n stale g) : (e.later n).isExpired g = e.isExpired h := by
  cases e with
  | builtIn watched k => exact Kernel.isExpired_later m
  | fixed => rfl

theorem delayLeft_later (m : h.Matches n stale g) :
    (e.later n).delayLeft g = e.delayLeft h ∨
      e.delayLeft h = .ok (.error (.expiredHandle h.uid)) ∧
        (e.later n).delayLeft g = .ok (.error (.expiredHandle g.uid)) := by
  cases e with
  | builtIn watched k => exact Kernel.delayLeft_later m
  | fixed => exact .inl rfl

/-- A stale handle is of no use to the later engine. -/
theorem useless_later (hg : ∀ id, g.owner = some id → id < n) :
    (e.later n).isExpired g = true ∧ (e.later n).cancel g = (none, e.later n) ∧
      (e.later n).remove g = (none, e.later n) := by
  cases e with
  | builtIn watched k =>
    have hi := Kernel.not_issued_later (k := k) hg
    simp [later, isExpired, cancel, remove, Kernel.isExpired, Kernel.cancel, Kernel.remove, hi]
  | fixed => exact ⟨rfl, rfl, rfl⟩

end Engine

/-- Only the identity tells the answers of the later kernel from those of the earlier one. -/
theorem World.answer_later {e : Engine Action} (q : Query) :
    World.answer (e.later n) q = (World.answer e q).later n := by
  cases e <;> cases q <;> rfl

end EventSim
