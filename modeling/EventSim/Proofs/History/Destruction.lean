import EventSim.Proofs.History.Accounts
import EventSim.Proofs.History.Handles
import EventSim.Proofs.Kernel.Delays
import EventSim.Proofs.Kernel.Destruction
import EventSim.Proofs.Machine.Housing
import EventSim.Proofs.Machine.Termination

/-!
# Destruction over the life of a kernel

`Permitted.destruction` says how a kernel goes through its teardown events in any lawful history, in
which these may register and withdraw others, schedule timed events, run and destroy the kernel and
panic.  **They start in the order of their registration, each once, and only in a turn of a
destruction**; what has not started and was not withdrawn waits for the next turn, whichever call
that belongs to; and a destruction that returns has started all of them and leaves nothing behind.
-/

namespace EventSim

namespace Machine

variable {m : Machine} {x : Move} {id : KernelId} {rest : List Frame} {k : Kernel Action}
  {e : TeardownEvent Action}

/-! ### Turns of a destruction -/

/-- A teardown event starts in a turn of the destruction of its kernel, as the first that waits. -/
theorem destroying_of_unwound (h : (id, .unwound e) ∈ m.notes x) :
    x = .step ∧ ∃ rest k later, m.stack = .destroying id :: rest ∧
      m.world.kernel? id = some k ∧ k.teardowns = e :: later := by
  obtain ⟨-, k, d, ht, hk, hn⟩ := turn_of_mem_notes h trivial
  obtain ⟨rfl, hturn⟩ := turn_cases ht
  refine ⟨rfl, ?_⟩
  cases hturn with
  | @running _ k' => cases hq : k'.dequeue <;> simp [hq, Dequeued.deed, Kernel.note?] at hn
  | @destroying rest _ hs hk' =>
    rw [hk] at hk'
    cases hk'
    unfold Kernel.unwinding at hn
    split at hn
    · rename_i hq
      cases hn
      obtain ⟨later, hl, -⟩ := Kernel.popTeardown_eq_some.1 hq
      exact ⟨rest, k, later, hs, hk, hl⟩
    · cases hn
  | clearing => cases hn

/-- A kernel goes only if the program has no name for it. -/
theorem unnamed_of_vanished {lost : List (Item Action)} (h : (id, .vanished lost) ∈ m.notes x) :
    m.world.isNamed id = false ∧ (m.world.kernel? id).isSome := by
  obtain ⟨-, k, d, ht, hk, hn⟩ := turn_of_mem_notes h trivial
  refine ⟨?_, by rw [hk]; rfl⟩
  cases (turn_cases ht).2 with
  | @running _ k' =>
    cases hq : k'.dequeue <;> simp [hq, Dequeued.deed, Kernel.note?] at hn
  | destroying =>
    unfold Kernel.unwinding at hn
    split at hn <;> cases hn
  | clearing _ _ hname => exact hname

/-- **A turn of a destruction** starts the first teardown event that waits, or else gives up the
timed events and returns. -/
theorem destroying_turn (hs : m.stack = .destroying id :: rest)
    (hk : m.world.kernel? id = some k) :
    match k.teardowns with
    | e :: _ => m.notes .step = [(id, .unwound e)] ∧
        ∃ w, m.make .step = startAction ⟨w, m.stack, m.result⟩ e.action
    | [] => m.notes .step = [(id, .swept k.storedItems)] ∧
        roles (m.make .step).stack = roles rest := by
  obtain ⟨w, stack, result⟩ := m
  obtain rfl : stack = .destroying id :: rest := hs
  obtain ⟨watched, he⟩ := World.kernel?_eq_some.1 hk
  have hnotes : notes ⟨w, .destroying id :: rest, result⟩ .step =
      ((k.note? k.unwinding).map fun n => (id, n)).toList := by
    rw [notes, turn?_destroying he]
    simp [onset?, noted_of_engine he]
  have ht := destroyTurn_stepDestroy w id (.destroying id :: rest) rest result
  generalize hmake : stepDestroy ⟨w, .destroying id :: rest, result⟩ id rest = n at ht
  have hmake : make ⟨w, .destroying id :: rest, result⟩ .step = n := hmake
  rw [hmake, hnotes, Kernel.unwinding]
  cases ht with
  | absent hne => exact absurd he (hne watched k)
  | unwound he' hq =>
    rw [he] at he'
    cases he'
    obtain ⟨later, hl, -⟩ := Kernel.popTeardown_eq_some.1 hq
    rw [hl, hq]
    exact ⟨rfl, _, rfl⟩
  | swept he' hq =>
    rw [he] at he'
    cases he'
    rw [Kernel.popTeardown_eq_none.1 hq, hq]
    exact ⟨rfl, roles_deliver _⟩

/-! ### Calls of `destroy` -/

/-- A call of `destroy` that reaches a kernel puts its destruction at the bottom of the stack. -/
theorem stack_ofCall_destroy {t : Target} {w : World}
    (hr : m.world.reach t = .ok (id, w)) (hk : w.kernel? id = some k) :
    (ofCall m.world (.destroy t)).stack = [.destroying id] := by
  obtain ⟨watched, he⟩ := World.kernel?_eq_some.1 hk
  rw [ofCall, start, hr]
  simp only [beginDestroy, he]

/-- A destruction at the bottom of the stack stays there up to its last turn or a panic. -/
theorem destroying_at_bottom (h : ∃ above, roles m.stack = above ++ [.destroying id]) :
    m.step.Panicked ∨ (∃ above, roles m.step.stack = above ++ [.destroying id]) ∨
      m.stack = [.destroying id] ∧ m.step.stack = [] := by
  obtain ⟨above, h⟩ := h
  have hx : m.Allows Command.Lawful .step := trivial
  cases hx.passes with
  | launched w a _ hm =>
    rw [show m.step = startAction ⟨w, m.stack, m.result⟩ a from hm]
    rcases roles_startAction w m.stack m.result a with hp | hr
    · exact .inl hp
    · exact .inr (.inl ⟨.body :: above, by rw [hr, h]; rfl⟩)
  | extended _ he =>
    rcases he with hp | ⟨new, hr, -⟩
    · exact .inl hp
    · exact .inr (.inl ⟨new ++ above, by rw [List.append_assoc, ← h]; exact hr⟩)
  | popped _ hr =>
    have hr : roles m.step.stack = (roles m.stack).tail := hr
    rw [h] at hr
    cases above with
    | nil =>
      refine .inr (.inr ⟨?_, List.map_eq_nil_iff.1 hr⟩)
      obtain ⟨f, hs, hf⟩ := List.map_eq_singleton_iff.1 h
      cases f <;> cases hf
      exact hs
    | cons role above => exact .inr (.inl ⟨above, hr⟩)
  | unwound frames hu => cases hu

/-- Nothing is noted of a step after the end of a call. -/
theorem notes_of_stack (h : m.stack = []) : m.notes .step = [] := by
  rw [notes, onset?, turn?, h]
  rfl

end Machine

namespace History

open Machine

variable {environment : Option String} {l l' older : List Move} {id : KernelId} {k : Kernel Action}
  {h : Handle} {a : Action} {e : TeardownEvent Action}

/-! ### What waits -/

theorem Permitted.filed (hl : Permitted Command.Lawful environment l)
    (hk : (after environment l).world.kernel? id = some k) :
    k.Filed (record environment id l) :=
  hl.keeps hk (Kernel.filed_fresh id) fun _ hd he hI => hI.does hd he

theorem Permitted.nodup_registered (hl : Permitted Command.Lawful environment l)
    (hk : (after environment l).world.kernel? id = some k) :
    ((registeredIn (record environment id l)).map TeardownEvent.uid).Nodup :=
  (hl.accounted hk).distinct.sublist (registeredIn_uids _)

/-- A teardown event waits from its registration on until it starts, is withdrawn or goes. -/
theorem Permitted.waits_iff (hl : Permitted Command.Lawful environment l)
    (hk : (after environment l).world.kernel? id = some k)
    (hm : .issued h (.act a) ∈ record environment id l) (ht : h.kind = .teardown) :
    ⟨h.uid, a⟩ ∈ k.teardowns ↔ LiveIn (record environment id l) h := by
  have hissued := ((hl.tracked hk).known h _ hm).1
  have hfiled := hl.filed hk
  have hself : (⟨h.uid, a⟩ : TeardownEvent Action) ∈ registeredIn (record environment id l) :=
    mem_registeredIn.2 ⟨h, hm, ht, rfl⟩
  rw [← (hl.tracked hk).isExpired_eq_false_iff fun _ => ⟨_, hm⟩, Kernel.isExpired_eq_false, ht]
  constructor
  · exact fun hw => ⟨hissued, List.mem_map_of_mem hw⟩
  · rintro ⟨-, hu⟩
    obtain ⟨e, he, heq⟩ := List.mem_map.1 hu
    have h : e = ⟨h.uid, a⟩ :=
      List.inj_on_of_nodup_map (hl.nodup_registered hk) (hfiled.registered he) hself heq
    exact h ▸ he

/-- No timed event that starts has the number of a teardown event. -/
theorem Permitted.started_apart (hl : Permitted Command.Lawful environment l)
    (hk : (after environment l).world.kernel? id = some k) {t : Event (Payload Action)}
    (ht : t ∈ startedIn (record environment id l))
    (he : e ∈ registeredIn (record environment id l)) : t.key.uid ≠ e.uid := by
  obtain ⟨n, hn, hstarted⟩ := List.mem_filterMap.1 ht
  obtain rfl : n = .started t := by
    cases n <;> cases hstarted
    rfl
  obtain ⟨later, earlier, hr⟩ := List.append_of_mem hn
  have hsource := (hl.sourced hk).started t earlier ⟨later, hr.symm⟩
  have hmem : earlier ⊆ record environment id l := by
    rw [hr]
    exact fun n hn => List.mem_append_right _ (List.mem_cons_of_mem _ hn)
  obtain ⟨h, hissued, hkind, hu⟩ := mem_registeredIn.1 he
  intro heq
  have hh := eq_of_issued (hl.accounted hk).distinct hissued (hmem hsource) (hu.trans heq.symm)
  rw [hh] at hkind
  cases hkind

/-! ### Kernels that go -/

/-- A kernel without a name gets none. -/
theorem unnamed_since (hs : l' <:+ l) (hid : id < (after environment l').world.engines.length)
    (hn : (after environment l').world.isNamed id = false) :
    id < (after environment l).world.engines.length ∧
      (after environment l).world.isNamed id = false := by
  induction l with
  | nil =>
    rw [List.suffix_nil.1 hs] at hid hn
    exact ⟨hid, hn⟩
  | cons x l ih =>
    rcases List.suffix_cons_iff.1 hs with rfl | hs
    · exact ⟨hid, hn⟩
    · obtain ⟨hid, hn⟩ := ih hs
      have h := names_make (after environment l) x
      exact ⟨Nat.lt_of_lt_of_le hid h.length, h.isNamed hid hn⟩

/-- A kernel that has a name has never gone. -/
theorem not_vanished (hn : (after environment l).world.isNamed id = true)
    (lost : List (Item Action)) : .vanished lost ∉ record environment id l := by
  intro hm
  obtain ⟨newer, x, older, rfl, hx⟩ := exists_move hm
  obtain ⟨hunnamed, hsome⟩ := unnamed_of_vanished hx
  obtain ⟨k, hk⟩ := Option.isSome_iff_exists.1 hsome
  obtain ⟨watched, he⟩ := World.kernel?_eq_some.1 hk
  have hid : id < (after environment older).world.engines.length :=
    (List.getElem?_eq_some_iff.1 he).1
  have hsuffix : older <:+ newer ++ x :: older :=
    (List.suffix_cons x older).trans (List.suffix_append _ _)
  have h := (unnamed_since hsuffix hid hunnamed).2
  rw [hn] at h
  cases h

/-! ### Destructions that return -/

/-- Nothing is left in the kernel.  What was ever registered has started, unless somebody has
withdrawn it or, if the program has no name for the kernel, this has gone with it. -/
structure Emptied (environment : Option String) (l : List Move) (id : KernelId)
    (k : Kernel Action) : Prop where
  teardowns : k.teardowns = []
  pending : k.pending = []
  cancelled : k.cancelled = []
  stored : k.scheduler.toList = []
  fate : ∀ e ∈ registeredIn (record environment id l), e ∈ unwoundIn (record environment id l) ∨
    (∃ h lost, .withdrawn h lost ∈ record environment id l ∧ e.item ∈ lost) ∨
    (after environment l).world.isNamed id = false ∧
      ∃ lost, .vanished lost ∈ record environment id l ∧ e.item ∈ lost

/-- A destruction that returns, to the outside or to whoever has called it, leaves nothing. -/
theorem Permitted.emptied {rest : List Frame}
    (hl : Permitted Command.Lawful environment (.step :: older))
    (hk : (after environment (.step :: older)).world.kernel? id = some k)
    (hs : (after environment older).stack = .destroying id :: rest)
    (hlen : (after environment (.step :: older)).stack.length ≤ rest.length)
    (hp : ¬ (after environment (.step :: older)).Panicked) :
    Emptied environment (.step :: older) id k := by
  have hitems := hl.items_of_destroyed hk hs hlen hp
  obtain ⟨hstored, hteardowns⟩ := List.append_eq_nil_iff.1 hitems
  have hlist := List.map_eq_nil_iff.1 hstored
  have hwaiting := List.map_eq_nil_iff.1 hteardowns
  have hsets := (hl.sound hk).stored
  rw [Kernel.storedUids, hlist] at hsets
  obtain ⟨hpending, hcancelled⟩ := List.append_eq_nil_iff.1 hsets.nil_eq.symm
  refine ⟨hwaiting, hpending, hcancelled, hlist, fun e he => ?_⟩
  rcases (hl.filed hk).fate e he with hw | hu | ⟨n, hn, hd⟩
  · rw [hwaiting] at hw
    cases hw
  · exact .inl hu
  · cases n with
    | withdrawn h lost => exact .inr (.inl ⟨h, lost, hn, hd⟩)
    | vanished lost =>
      refine .inr (.inr ⟨?_, lost, hn, hd⟩)
      exact Bool.eq_false_iff.2 fun hnamed => not_vanished hnamed lost hn
    | _ => exact hd.elim

/-- What is empty after a call stays so while nothing moves. -/
theorem Emptied.step (h : Emptied environment l id k) (hs : (after environment l).stack = []) :
    Emptied environment (.step :: l) id k := by
  have hrecord : record environment id (.step :: l) = record environment id l := by
    rw [record, notes_of_stack hs]
    rfl
  have hafter : after environment (.step :: l) = after environment l := step_of_stack hs
  refine ⟨h.teardowns, h.pending, h.cancelled, h.stored, ?_⟩
  rw [hrecord, hafter]
  exact h.fate

theorem after_replicate_step (environment : Option String) (l : List Move) (n : Nat) :
    after environment (.replicate n .step ++ l) = (after environment l).steps n := by
  induction n with
  | zero => rfl
  | succ n ih =>
    rw [List.replicate_succ, List.cons_append, after, ih, steps_succ]
    rfl

/-- **A call of `destroy` panics, goes on, or has emptied the kernel.** -/
theorem Permitted.call_destroy {n : Nat} {t : Target} {w : World} {k₀ : Kernel Action}
    (hl : Permitted Command.Lawful environment (.replicate n .step ++ .call (.destroy t) :: older))
    (hr : (after environment older).world.reach t = .ok (id, w)) (hk₀ : w.kernel? id = some k₀) :
    let m := after environment (.replicate n .step ++ .call (.destroy t) :: older)
    m.Panicked ∨ (∃ above, roles m.stack = above ++ [.destroying id]) ∨
      m.stack = [] ∧ ∀ k, m.world.kernel? id = some k →
        Emptied environment (.replicate n .step ++ .call (.destroy t) :: older) id k := by
  induction n with
  | zero =>
    refine .inr (.inl ⟨[], ?_⟩)
    show roles (ofCall (after environment older).world (.destroy t)).stack = _
    rw [stack_ofCall_destroy hr hk₀]
    rfl
  | succ n ih =>
    have hstill (h : (after environment
        (.replicate n .step ++ .call (.destroy t) :: older)).stack = []) :
        after environment (.replicate (n + 1) .step ++ .call (.destroy t) :: older) =
          after environment (.replicate n .step ++ .call (.destroy t) :: older) :=
      step_of_stack h
    rcases ih hl.2 with hp | hb | ⟨hnil, hempty⟩
    · exact .inl (by rwa [hstill hp.1])
    · rcases destroying_at_bottom hb with hp | hb | ⟨hs, hnil⟩
      · exact .inl hp
      · exact .inr (.inl hb)
      · by_cases hp : (after environment
            (.replicate (n + 1) .step ++ .call (.destroy t) :: older)).Panicked
        · exact .inl hp
        · have hlen : (after environment (.step ::
              (.replicate n .step ++ .call (.destroy t) :: older))).stack.length ≤ 0 :=
            Nat.le_of_eq (congrArg List.length hnil)
          exact .inr (.inr ⟨hnil, fun k hk => hl.emptied hk hs hlen hp⟩)
    · refine .inr (.inr ⟨by rw [hstill hnil]; exact hnil, fun k hk => ?_⟩)
      rw [hstill hnil] at hk
      exact (hempty k hk).step hnil

/-- **A kernel goes through its teardown events in the order of their registration.**  For every
kernel and every lawful history:

* No number is registered twice, and none is that of a timed event that has started.  What has
  started, followed by what waits, is in the order of registration; so nothing starts twice.
* An event waits exactly as long as it has not started, been withdrawn or gone with the kernel since
  its registration, whether calls returned or were cut short.
* An event starts only in a turn of a destruction, never in one of a run loop, and only while it
  waits.  Actions start in no other way.
* A turn of a destruction starts the first event that waits.  If none does, the destruction returns.
* A destruction that returns leaves nothing in the kernel.
* An outermost call of `destroy` ends, after as many steps as it weighs at most, in a panic or with
  nothing left in the kernel. -/
theorem Permitted.destruction (hl : Permitted Command.Lawful environment l)
    (hk : (after environment l).world.kernel? id = some k) :
    ((registeredIn (record environment id l)).map TeardownEvent.uid).Nodup ∧
    (∀ t ∈ startedIn (record environment id l), ∀ e ∈ registeredIn (record environment id l),
      t.key.uid ≠ e.uid) ∧
    ((unwoundIn (record environment id l)).reverse ++ k.teardowns).Sublist
      (registeredIn (record environment id l)).reverse ∧
    (∀ h a, .issued h (.act a) ∈ record environment id l → h.kind = .teardown →
      (⟨h.uid, a⟩ ∈ k.teardowns ↔ LiveIn (record environment id l) h)) ∧
    (∀ newer x older, l = newer ++ x :: older → (after environment older).Honest x ∧
      ∀ e, (id, .unwound e) ∈ (after environment older).notes x →
        x = .step ∧ (∃ rest, (after environment older).stack = .destroying id :: rest) ∧
        ∃ h, .issued h (.act e.action) ∈ record environment id older ∧ h.kind = .teardown ∧
          h.uid = e.uid ∧ LiveIn (record environment id older) h) ∧
    (∀ newer older rest k₀, l = newer ++ .step :: older →
      (after environment older).stack = .destroying id :: rest →
      (after environment older).world.kernel? id = some k₀ →
      match k₀.teardowns with
      | e :: _ => (after environment older).notes .step = [(id, .unwound e)] ∧
          ∃ w, after environment (.step :: older) =
            startAction ⟨w, (after environment older).stack, (after environment older).result⟩
              e.action
      | [] => (after environment older).notes .step = [(id, .swept k₀.storedItems)] ∧
          roles (after environment (.step :: older)).stack = roles rest) ∧
    (∀ older rest, l = .step :: older → (after environment older).stack = .destroying id :: rest →
      (after environment l).stack.length ≤ rest.length → ¬ (after environment l).Panicked →
      Emptied environment l id k) ∧
    ∀ n older t w k₀, l = .replicate n .step ++ .call (.destroy t) :: older →
      (after environment older).world.reach t = .ok (id, w) → w.kernel? id = some k₀ →
      ((ofCall (after environment older).world (.destroy t)).weight ≤ n →
        (after environment l).stack = []) ∧
      ((after environment l).stack = [] →
        (after environment l).Panicked ∨ Emptied environment l id k) := by
  refine ⟨hl.nodup_registered hk, fun t ht e he => hl.started_apart hk ht he, (hl.filed hk).order,
    fun h a hm ht => hl.waits_iff hk hm ht, ?_, ?_, ?_, ?_⟩
  · intro newer x older hs
    have hx : Permitted Command.Lawful environment (x :: older) := hl.suffix ⟨newer, hs.symm⟩
    refine ⟨hx.1.honest, fun e hm => ?_⟩
    obtain ⟨rfl, rest, k₀, later, hstack, hk₀, hteardowns⟩ := destroying_of_unwound hm
    have hwaits : e ∈ k₀.teardowns := hteardowns ▸ List.mem_cons_self
    obtain ⟨h, hissued, hkind, hu⟩ :=
      mem_registeredIn.1 ((hx.2.filed hk₀).registered hwaits)
    refine ⟨rfl, ⟨rest, hstack⟩, h, hissued, hkind, hu, ?_⟩
    refine (hx.2.waits_iff hk₀ hissued hkind).1 ?_
    rwa [hu]
  · intro newer older rest k₀ _ hstack hk₀
    exact destroying_turn hstack hk₀
  · rintro older rest rfl hstack hlen hp
    exact hl.emptied hk hstack hlen hp
  · rintro n older t w k₀ rfl hr hk₀
    refine ⟨fun hn => ?_, fun hnil => ?_⟩
    · rw [after_replicate_step]
      exact stack_steps hn
    rcases hl.call_destroy hr hk₀ with hp | ⟨above, hb⟩ | ⟨-, hempty⟩
    · exact .inl hp
    · rw [hnil] at hb
      simp [roles] at hb
    · exact .inr (hempty k hk)

/-- Of three teardown events the third is withdrawn.  The first registers a fourth one, schedules a
timed event and panics; the second destroys the kernel again from inside of the second call. -/
def interruptedRun : List Move :=
  let t : Target := .kernel (.numbered 0)
  .replicate 7 .step ++ .call (.destroy t) :: .replicate 4 .step ++ [.call (.destroy t),
    .call (.cancel t (.numbered 3)),
    .call (.schedule t .atTeardown (.numbered 3) (.silent [])),
    .call (.schedule t .atTeardown (.numbered 2) (.silent [.destroy t])),
    .call (.schedule t .atTeardown (.numbered 1) (.silent
      [.schedule t .atTeardown (.numbered 4) (.silent []),
        .schedule t (.after (.clamp 1)) (.numbered 5) (.silent []), .panic "interrupted"])),
    .call (.build none (.builtIn 0))]

theorem permitted_interruptedRun : Permitted Command.Lawful none interruptedRun := by
  simp only [interruptedRun, List.replicate, List.cons_append, List.nil_append, Permitted, Allows]
  refine ⟨trivial, trivial, trivial, trivial, trivial, trivial, trivial, ⟨rfl, ?_⟩, trivial,
    trivial, trivial, trivial, ⟨rfl, ?_⟩, ⟨rfl, ?_⟩, ⟨rfl, ?_⟩, ⟨rfl, ?_⟩, ⟨rfl, ?_⟩, ⟨rfl, ?_⟩,
    trivial⟩
  all_goals simp [Command.All, Action.silent, Action.All, allOf, Command.Lawful]

/-- The second call goes on where the first one was interrupted, and leaves nothing. -/
theorem destruction_interruptedRun :
    (after none (interruptedRun.drop 8)).Panicked ∧
    ∃ k, (after none interruptedRun).world.kernel? 0 = some k ∧
      (registeredIn (record none 0 interruptedRun)).reverse.map TeardownEvent.uid = [1, 2, 3, 4] ∧
      (unwoundIn (record none 0 interruptedRun)).reverse.map TeardownEvent.uid = [1, 2, 4] ∧
      ((unwoundIn (record none 0 interruptedRun)).reverse ++ k.teardowns).Sublist
        (registeredIn (record none 0 interruptedRun)).reverse ∧
      Emptied none interruptedRun 0 k := by
  obtain ⟨k, hk⟩ : ∃ k, (after none interruptedRun).world.kernel? 0 = some k :=
    Option.isSome_iff_exists.1 rfl
  obtain ⟨-, -, horder, -, -, -, -, hcall⟩ := permitted_interruptedRun.destruction hk
  have hempty := (hcall 7 (interruptedRun.drop 8) (.kernel (.numbered 0)) _ _ rfl rfl rfl).2 rfl
  refine ⟨⟨rfl, _, rfl⟩, k, hk, rfl, rfl, horder, hempty.resolve_left ?_⟩
  rintro ⟨-, p, hp⟩
  cases hp

end History

end EventSim
