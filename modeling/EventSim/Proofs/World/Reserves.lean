import EventSim.Proofs.Machine.Programs
import EventSim.Proofs.World.Requests
import EventSim.Proofs.World.Weights
import Mathlib.Algebra.Order.BigOperators.Group.Finset

/-!
# What there is to dequeue

A run loop can dequeue what is stored and what will be stored, and nothing is stored but by a timed
scheduling call of a body that has not run yet.  So what a kernel has in reserve is the number of
its stored events together with the timed scheduling calls that occur in the bodies of all that it
holds.

A deed books what it adds to the reserve and uses what it takes out of it: `Kernel.Does.reserve_le`
says that **nothing is used that was not in reserve or is booked**.  A world has in reserve what its
kernels have, and by `World.reserve_perform` **a command that runs nothing adds no more than the
timed scheduling calls that occur in it**, whatever backends and handles there are.
-/

namespace EventSim

/-! ### Timed scheduling calls -/

/-- A scheduling call at this timing is a timed one. -/
def Timing.calls : Timing → Nat
  | .atTeardown => 0
  | _ => 1

mutual

/-- The timed scheduling calls that occur in a command, if those of a scenario are so many. -/
def Command.calls (f : ScenarioRequest → Nat) : Command → Nat
  | .schedule _ timing _ a => timing.calls + a.calls f
  | .scheduleEach _ delays _ a => delays.length * (a.calls f + 1)
  | .chain _ _ _ length _ => length
  | .stopAfter .. => 1
  | .scenario request => f request
  | _ => 0

/-- The timed scheduling calls that occur in the body of an action. -/
def Action.calls (f : ScenarioRequest → Nat) : Action → Nat
  | .mk _ _ _ body => bodyCalls f body

/-- The timed scheduling calls that occur in a body. -/
def bodyCalls (f : ScenarioRequest → Nat) : List Command → Nat
  | [] => 0
  | c :: rest => c.calls f + bodyCalls f rest

end

theorem bodyCalls_eq (f : ScenarioRequest → Nat) (l : List Command) :
    bodyCalls f l = total (Command.calls f) l := by
  induction l with
  | nil => rw [bodyCalls, total_nil]
  | cons c rest ih => rw [bodyCalls, ih, total_cons]

theorem Action.calls_eq (f : ScenarioRequest → Nat) (a : Action) :
    a.calls f = total (Command.calls f) a.body := by
  cases a with
  | mk tag reporting target body => rw [Action.calls, bodyCalls_eq, Action.body]

section Scenarios

variable {p : Command → Prop} {f g : ScenarioRequest → Nat}

mutual

/-- What the scenarios count for makes a difference only where there are any. -/
theorem Command.All.calls_eq (h : ∀ r, p (.scenario r) → f r = g r) :
    ∀ {c : Command}, c.All p → c.calls f = c.calls g
  | .schedule .., hc => by
    simp only [Command.All] at hc
    simp only [Command.calls, hc.2.calls_eq h]
  | .scheduleEach .., hc => by
    simp only [Command.All] at hc
    simp only [Command.calls, hc.2.calls_eq h]
  | .scenario r, hc => by
    simp only [Command.All] at hc
    simp only [Command.calls, h r hc]
  | .chain .., _ | .idle, _ | .stopAfter .., _ | .cancel .., _ | .remove .., _ | .isExpired .., _
  | .delayLeft .., _ | .run _, _ | .stop _, _ | .destroy _, _ | .attach .., _ | .query .., _
  | .inspect _, _ | .same .., _ | .forge .., _ | .build .., _ | .panic _, _ | .isPopulated, _
  | .attachNamed _, _ | .install _, _ | .teardown, _ | .config _, _ | .registry _, _
  | .printing _, _ | .trace _, _ | .observe _, _ | .observations, _ | .capture, _
  | .isStored _, _ | .backendName _, _ => by simp only [Command.calls]

theorem Action.All.calls_eq (h : ∀ r, p (.scenario r) → f r = g r) :
    ∀ {a : Action}, a.All p → a.calls f = a.calls g
  | .mk _ _ _ body, ha => by
    simp only [Action.All] at ha
    simp only [Action.calls, allOf.calls_eq h ha]

theorem allOf.calls_eq (h : ∀ r, p (.scenario r) → f r = g r) :
    ∀ {l : List Command}, allOf p l → bodyCalls f l = bodyCalls g l
  | [], _ => by simp only [bodyCalls]
  | _ :: _, hl => by
    simp only [allOf] at hl
    simp only [bodyCalls, hl.1.calls_eq h, allOf.calls_eq h hl.2]

end

end Scenarios

/-- The timed scheduling calls that occur in the plan of a scenario, in which there are no other
scenarios. -/
def ScenarioRun.timedCalls (r : ScenarioRun) : Nat :=
  total (fun x => x.command.calls fun _ => 0) r.plan

/-- The timed scheduling calls of a scenario that is asked for. -/
def ScenarioRequest.timedCalls (r : ScenarioRequest) : Nat :=
  (ScenarioRun.ofRequest? r).elim 0 ScenarioRun.timedCalls

/-- The timed scheduling calls that occur in a command. -/
def Command.timedCalls (c : Command) : Nat := c.calls ScenarioRequest.timedCalls

/-- The timed scheduling calls that occur in the body of an action. -/
def Action.timedCalls (a : Action) : Nat := a.calls ScenarioRequest.timedCalls

/-- The timed scheduling calls that occur in the body of an event, if it has one. -/
def Payload.timedCalls : Payload Action → Nat
  | .halt => 0
  | .act a => a.timedCalls

theorem Action.timedCalls_eq (a : Action) : a.timedCalls = total Command.timedCalls a.body :=
  a.calls_eq _

theorem Action.timedCalls_numbered (a : Action) (i : Nat) :
    (a.numbered i).timedCalls = a.timedCalls := by
  rw [Action.timedCalls_eq, Action.timedCalls_eq]
  rfl

theorem ScenarioRun.timedCalls_eq (r : ScenarioRun) :
    r.timedCalls = total (fun x => x.command.timedCalls) r.plan := by
  have hplan : ∀ x ∈ r.plan, (x.command.calls fun _ => 0) = x.command.timedCalls :=
    fun x hx => Command.All.calls_eq (fun _ h => h.elim) (r.all_plan (fun _ => id) x hx)
  exact total_congr hplan

/-- The rest of a chain is a timed scheduling call each. -/
theorem World.timedCalls_link (t : Target) (tag : String) (delay : Time) (left : Nat)
    (name : HandleName) : (link t tag delay left name).timedCalls = left := by
  rw [Action.timedCalls_eq]
  rfl

/-! ### Kernels -/

namespace Deed

/-- The number of events that a deed puts into the scheduler. -/
def inserted {α : Type} : Deed α → Nat
  | stored .. => 1
  | _ => 0

/-- The number of events that a deed takes out of the scheduler to run or to skip them. -/
def dequeued {α : Type} : Deed α → Nat
  | started _ | skipped _ | strayed _ => 1
  | _ => 0

/-- The timed scheduling calls that occur in the body that starts. -/
def timedCalls : Deed Action → Nat
  | started e => e.payload.timedCalls
  | unwound e => e.action.timedCalls
  | _ => 0

/-- What a deed adds to the reserve. -/
def booked (d : Deed Action) : Nat := d.inserted + total Payload.timedCalls d.taken

/-- What a deed takes out of the reserve, if the events of its kernel count. -/
def used (counts : Bool) (d : Deed Action) : Nat := counts.toNat * d.dequeued + d.timedCalls

theorem timedCalls_le (d : Deed Action) : d.timedCalls ≤ total Payload.timedCalls d.handed := by
  cases d <;> first | exact Nat.zero_le _ | exact Nat.le_refl _

end Deed

namespace Kernel

/-- The number of stored events. -/
def size {α : Type} (k : Kernel α) : Nat := k.scheduler.toList.length

theorem size_remove_le {α : Type} (k : Kernel α) (h : Handle) : (k.remove h).2.size ≤ k.size := by
  unfold remove
  split
  · split
    · exact Nat.le_refl _
    · dsimp only
      split
      · have hlength := (Scheduler.perm_remove k.scheduler h.key).length_eq
        rw [List.length_append] at hlength
        unfold size
        dsimp only
        omega
      · exact Nat.le_refl _
  · exact Nat.le_refl _

theorem size_cancel {α : Type} (k : Kernel α) (h : Handle) : (k.cancel h).2.size = k.size := by
  unfold cancel
  split
  · split
    · rfl
    · split <;> rfl
  · rfl

/-- Nothing is dequeued that was not stored. -/
theorem Does.size_le {α : Type} {k k' : Kernel α} {d : Deed α} (hd : k.Does d k') :
    k'.size + d.dequeued ≤ k.size + d.inserted := by
  have hpop {e : Event (Payload α)} {rest : Scheduler (Payload α)}
      (hp : k.scheduler.pop = some (e, rest)) : rest.toList.length + 1 = k.size :=
    (Scheduler.perm_pop hp).length_eq.symm
  have hpayloads (s : Scheduler (Payload α)) : s.payloads.length = s.toList.length :=
    List.length_map _
  cases hd with
  | issued hi =>
    cases hi with
    | stored time context payload ht =>
      have h := (Scheduler.payloads_insert k.scheduler
        ⟨⟨time, k.nextUid, context⟩, payload⟩).length_le
      rwa [hpayloads, List.length_cons, hpayloads] at h
    | registered a => exact Nat.le_refl _
  | removed h => exact k.size_remove_le h
  | cancelled h => exact Nat.le_of_eq (k.size_cancel h)
  | attached b =>
    have h := (Scheduler.payloads_migrate k.scheduler b).length_le
    rwa [hpayloads, hpayloads] at h
  | stopped | began | ended => exact Nat.le_refl _
  | started hq =>
    obtain ⟨rest, hp, -, -, rfl⟩ := dequeue_eq_started hq
    exact Nat.le_of_eq (hpop hp)
  | skipped hq =>
    obtain ⟨e, rest, hp, -, -, rfl⟩ := dequeue_eq_skipped hq
    exact Nat.le_of_eq (hpop hp)
  | strayed hq =>
    obtain ⟨e, rest, hp, -, -, rfl⟩ := dequeue_eq_past hq
    exact Nat.le_of_eq (hpop hp)
  | unwound hq =>
    obtain ⟨rest, -, rfl⟩ := popTeardown_eq_some.1 hq
    exact Nat.le_refl _
  | swept | vanished => exact Nat.zero_le _

variable {k k' : Kernel Action} {d : Deed Action} {counts : Bool}

/-- The timed scheduling calls that occur in the bodies of all that the kernel holds. -/
def heldCalls (k : Kernel Action) : Nat := total Payload.timedCalls k.load

/-- The stored events, if they count, and the timed scheduling calls of all that is held. -/
def reserve (counts : Bool) (k : Kernel Action) : Nat := counts.toNat * k.size + k.heldCalls

/-- **Nothing is used that was not in reserve or is booked.** -/
theorem Does.reserve_le (hd : k.Does d k') (counts : Bool) :
    k'.reserve counts + d.used counts ≤ k.reserve counts + d.booked := by
  have hsize : counts.toNat * (k'.size + d.dequeued) ≤ counts.toNat * k.size + d.inserted := by
    have hone : counts.toNat * d.inserted ≤ d.inserted :=
      (Nat.mul_le_mul_right _ counts.toNat_le).trans (Nat.le_of_eq (Nat.one_mul _))
    refine (Nat.mul_le_mul_left _ hd.size_le).trans ?_
    rw [Nat.mul_add]
    exact Nat.add_le_add_left hone _
  have hcalls := total_le (f := Payload.timedCalls) hd.load
  rw [total_append, total_append] at hcalls
  have hstarts := d.timedCalls_le
  rw [Nat.mul_add] at hsize
  unfold reserve Deed.used Deed.booked heldCalls
  omega

end Kernel

/-! ### Worlds -/

namespace World

variable {w w' : World} {id : KernelId} {counts : KernelId → Bool}

/-- The sum of a number over all built-in kernels. -/
def across (w : World) (f : KernelId → Kernel Action → Nat) : Nat :=
  ∑ id ∈ Finset.range w.engines.length, (w.kernel? id).elim 0 (f id)

/-- The number of events that are stored in the kernels that count. -/
def stored (w : World) (counts : KernelId → Bool) : Nat :=
  w.across fun id k => (counts id).toNat * k.size

/-- The timed scheduling calls that occur in the bodies of all that the kernels hold. -/
def heldCalls (w : World) : Nat := w.across fun _ k => k.heldCalls

/-- What the kernels have in reserve. -/
def reserve (w : World) (counts : KernelId → Bool) : Nat :=
  w.across fun id k => k.reserve (counts id)

theorem across_add (w : World) (f g : KernelId → Kernel Action → Nat) :
    w.across (fun id k => f id k + g id k) = w.across f + w.across g := by
  rw [across, across, across, ← Finset.sum_add_distrib]
  refine Finset.sum_congr rfl fun id _ => ?_
  cases w.kernel? id <;> rfl

theorem reserve_eq (w : World) (counts : KernelId → Bool) :
    w.reserve counts = w.stored counts + w.heldCalls :=
  w.across_add _ _

theorem mem_range_of_kernel? {k : Kernel Action} (hk : w.kernel? id = some k) :
    id ∈ Finset.range w.engines.length := by
  refine Finset.mem_range.2 (Nat.lt_of_not_le fun h => ?_)
  rw [kernel?_of_length_le h] at hk
  cases hk

/-- One kernel in another's place. -/
theorem across_setEngine (f : KernelId → Kernel Action → Nat) {watched watched' : Bool}
    {k k' : Kernel Action} (hk : w.engine? id = some (.builtIn watched k)) :
    (w.setEngine id (.builtIn watched' k')).across f + f id k = w.across f + f id k' := by
  let v := w.setEngine id (.builtIn watched' k')
  let before (j : Nat) : Nat := (w.kernel? j).elim 0 (f j)
  let after (j : Nat) : Nat := (v.kernel? j).elim 0 (f j)
  have hold : w.kernel? id = some k := kernel?_eq_some.2 ⟨watched, hk⟩
  have hnew : v.kernel? id = some k' :=
    kernel?_eq_some.2 ⟨watched', engine?_setEngine_self hk _⟩
  have hmem := mem_range_of_kernel? hold
  -- both sums without the one kernel are the same
  have hothers : ∑ j ∈ (Finset.range w.engines.length).erase id, after j =
      ∑ j ∈ (Finset.range w.engines.length).erase id, before j := by
    refine Finset.sum_congr rfl fun j hj => ?_
    have hkept : v.kernel? j = w.kernel? j := by
      rw [kernel?, engine?_setEngine_ne _ (Finset.ne_of_mem_erase hj).symm, ← kernel?]
    simp only [after, before, hkept]
  have hbefore := Finset.add_sum_erase _ before hmem
  have hafter := Finset.add_sum_erase _ after hmem
  rw [hothers] at hafter
  have hone : before id = f id k := by simp only [before, hold, Option.elim_some]
  have hother : after id = f id k' := by simp only [after, hnew, Option.elim_some]
  have hlength : v.engines.length = w.engines.length := length_setEngine _ _ _
  have hv : v.across f = ∑ j ∈ Finset.range w.engines.length, after j := by
    rw [across, hlength]
  have hw : w.across f = ∑ j ∈ Finset.range w.engines.length, before j := rfl
  show v.across f + f id k = w.across f + f id k'
  omega

theorem reserve_aside (h : w.Aside w') : w'.reserve counts = w.reserve counts := by
  unfold reserve across
  rw [h.engines]
  refine Finset.sum_congr rfl fun id _ => ?_
  rw [kernel?_congr h.engines]

/-- What a deed makes of the reserve of the world. -/
theorem reserve_did {watched : Bool} {k k' : Kernel Action} {d : Deed Action}
    (hk : w.engine? id = some (.builtIn watched k)) (hd : k.Does d k')
    (counts : KernelId → Bool) :
    (w.setEngine id (.builtIn watched k')).reserve counts + d.used (counts id) ≤
      w.reserve counts + d.booked := by
  have hset : (w.setEngine id (.builtIn watched k')).reserve counts + k.reserve (counts id) =
      w.reserve counts + k'.reserve (counts id) :=
    across_setEngine (fun id k => k.reserve (counts id)) hk
  have hdeed := hd.reserve_le (counts id)
  omega

theorem reserve_attach (w : World) (id : KernelId) (b : Backend) (counts : KernelId → Bool) :
    (w.attach id b).reserve counts ≤ w.reserve counts := by
  refine attach_induction (I := fun v => v.reserve counts ≤ w.reserve counts) (Nat.le_refl _)
    (fun v v' ha hv => ?_) fun v watched k hk hv => ?_
  · rw [reserve_aside ha]
    exact hv
  · have h := reserve_did hk (.attached k b) counts
    have hbooked : (Deed.attached b : Deed Action).booked = 0 := rfl
    omega

/-- A new kernel has nothing in reserve. -/
theorem reserve_made (w : World) (spec : KernelSpec) (counts : KernelId → Bool) :
    { w with engines := w.engines ++ [Engine.make w.engines.length spec] }.reserve counts =
      w.reserve counts := by
  unfold reserve across
  rw [List.length_append, List.length_singleton, Finset.sum_range_succ]
  have hnew : Option.elim (kernel? { w with
      engines := w.engines ++ [Engine.make w.engines.length spec] } w.engines.length) 0
      (fun k => k.reserve (counts w.engines.length)) = 0 := by
    unfold kernel? engine?
    rw [List.getElem?_concat_length]
    cases spec <;> rfl
  rw [hnew, Nat.add_zero]
  refine Finset.sum_congr rfl fun j hj => ?_
  unfold kernel? engine?
  rw [List.getElem?_append_left (Finset.mem_range.1 hj)]

/-- Nothing is added to the reserve as long as nothing is stored. -/
theorem Happens.reserve_le {x : Happening} (h : w.Happens x w') (hx : x.Light) :
    w'.reserve counts ≤ w.reserve counts := by
  have hbooked {d : Deed Action} (ht : d.taken = []) : d.booked = 0 := by
    cases d <;> first | rfl | cases ht
  cases h with
  | aside ha => exact Nat.le_of_eq (reserve_aside ha)
  | made spec => exact Nat.le_of_eq (reserve_made w spec counts)
  | did hk hd hp =>
    have h := reserve_did hk hd counts
    rw [hbooked hx] at h
    omega
  | issued name hk hi =>
    have h := reserve_did hk (.issued hi) counts
    rw [hbooked hx] at h
    show (w.setEngine _ _).reserve counts ≤ _
    omega
  | occupied hs hb => exact reserve_attach { w with slot := some _ } _ _ counts
  | configured hb => exact reserve_attach w _ _ counts
  | _ => exact Nat.le_refl _

theorem reserve_le_of_evolves (h : Evolves Happening.Light w w') :
    w'.reserve counts ≤ w.reserve counts :=
  h.keeps (I := fun v => v.reserve counts ≤ w.reserve counts)
    (fun _ _ _ hx hl hv => (hx.reserve_le hl).trans hv) (Nat.le_refl _)

/-! ### Commands -/

theorem reserve_reach {t : Target} (h : w.reach t = .ok (id, w')) (counts : KernelId → Bool) :
    w'.reserve counts ≤ w.reserve counts :=
  reserve_le_of_evolves ((evolves_reach h).mono fun _ => Building.light)

/-- A kernel answers the handle of a teardown event to the call that registers one. -/
theorem kind_of_schedule {t : Target} {name : HandleName} {a : Action} {h : Handle}
    (hr : (w.schedule t .atTeardown name a).1 = .ok (.handle h)) (ho : h.owner.isSome) :
    h.kind = .teardown := by
  unfold schedule at hr
  split at hr
  · cases hr
  · split at hr
    · cases hr
    · rename_i e _
      cases e with
      | builtIn watched k =>
        cases hr
        rfl
      | fixed k =>
        cases hr
        cases ho

end World

/-- The call is a timed one if it is answered by the handle of a timed event. -/
def Request.Counts (q : Request) (n : Nat) : Prop :=
  ∀ h, q.reply = .ok (.handle h) → h.owner.isSome → h.kind = .timed → 1 ≤ n

namespace World

variable {w w' : World} {id : KernelId} {counts : KernelId → Bool}

/-- A scheduling call adds no more than itself and the calls in the body that it carries. -/
theorem reserve_request {q : Request} (h : q.Outcome) {n : Nat} (hn : q.Counts n)
    (counts : KernelId → Bool) :
    q.after.reserve counts ≤ q.before.reserve counts + (n + q.payload.timedCalls) := by
  cases h with
  | unreached _ _ ha =>
    rw [ha, reserve_aside (aside_releaseAll _ _)]
    exact Nat.le_add_right _ _
  | absent hv _ _ ha =>
    rw [ha]
    exact (reserve_reach hv counts).trans (Nat.le_add_right _ _)
  | @accepted id v watched k k' d h trace name hv he hi hp _ hr ha =>
    have hreach := reserve_reach hv counts
    have hdid := reserve_did (w := { v with trace := trace }) he (.issued hi) counts
    have hinserted : d.inserted ≤ n := by
      cases hi with
      | stored => exact hn _ hr rfl rfl
      | registered => exact Nat.zero_le n
    have hbooked : d.booked = d.inserted + q.payload.timedCalls := by
      rw [Deed.booked, hp]
      rfl
    have htrace : reserve { v with trace := trace } counts = v.reserve counts := rfl
    rw [ha]
    show (setEngine _ id (.builtIn watched k')).reserve counts ≤ _
    omega
  | @refused id v watched k e trace hv _ _ ha =>
    rw [ha, reserve_aside (aside_releaseAll _ _)]
    exact (reserve_reach hv counts).trans (Nat.le_add_right _ _)
  | @fixed id v k trace name hv _ _ ha =>
    rw [ha]
    show (releaseAll _ _).reserve counts ≤ _
    rw [reserve_aside (aside_releaseAll _ _)]
    exact (reserve_reach hv counts).trans (Nat.le_add_right _ _)

theorem counts_requestAction (w : World) (t : Target) (timing : Timing) (name : HandleName)
    (a : Action) : (w.requestAction t timing name a).Counts timing.calls := by
  intro h hr ho hkind
  cases timing with
  | atTeardown => exact absurd (hkind.symm.trans (kind_of_schedule hr ho)) nofun
  | _ => exact Nat.le_refl 1

theorem reserve_schedule (w : World) (t : Target) (timing : Timing) (name : HandleName)
    (a : Action) (counts : KernelId → Bool) : (w.schedule t timing name a).2.reserve counts ≤
      w.reserve counts + (timing.calls + a.timedCalls) :=
  reserve_request (outcome_requestAction w t timing name a)
    (w.counts_requestAction t timing name a) counts

theorem reserve_stopAfter (w : World) (t : Target) (delay : Time) (name : HandleName)
    (counts : KernelId → Bool) :
    (w.stopAfter t delay name).2.reserve counts ≤ w.reserve counts + 1 :=
  reserve_request (outcome_requestStop w t delay name) (fun _ _ _ _ => Nat.le_refl 1) counts

theorem reserve_scheduleEach (t : Target) (name : Option HandleName) (a : Action)
    (delays : List Time) (w : World) (i : Nat) (counts : KernelId → Bool) :
    (w.scheduleEach t name a i delays).2.reserve counts ≤
      w.reserve counts + delays.length * (a.timedCalls + 1) := by
  induction delays generalizing w i with
  | nil => exact Nat.le_add_right _ _
  | cons delay rest ih =>
    have h := reserve_schedule w t (.after delay)
      (name.getD (.word ((a.numbered i).tag.getD ""))) (a.numbered i) counts
    have hcalls : (Timing.after delay).calls = 1 := rfl
    rw [Action.timedCalls_numbered, hcalls] at h
    rw [List.length_cons, Nat.succ_mul]
    unfold scheduleEach
    dsimp only
    split
    · rename_i hs
      rw [hs] at h
      dsimp only at h ⊢
      omega
    · rename_i r v hs
      rw [hs] at h
      dsimp only at h
      have h' := ih v (i + 1)
      split <;> rename_i hr <;> rw [hr] at h' <;> dsimp only at h' ⊢ <;> omega

/-- **A command that runs nothing adds no more than the timed scheduling calls that occur in
it.** -/
theorem reserve_perform (w : World) (c : Command) (counts : KernelId → Bool) :
    (w.perform c).2.reserve counts ≤ w.reserve counts + c.timedCalls := by
  have hlight (hc : ∀ a, ¬ c.Carries a) (hs : ∀ t delay name, c ≠ .stopAfter t delay name) :
      (w.perform c).2.reserve counts ≤ w.reserve counts + c.timedCalls := by
    have h := (evolves_perform w c).mono fun x => light_of_brings hc hs
    exact (reserve_le_of_evolves h).trans (Nat.le_add_right _ _)
  cases c with
  | schedule t timing name a => exact reserve_schedule w t timing name a counts
  | scheduleEach t delays name a =>
    have h := reserve_scheduleEach t name a delays w 0 counts
    rw [perform]
    split <;> rename_i hs <;> rwa [hs] at h
  | chain t tag delay length name =>
    cases length with
    | zero => exact Nat.le_add_right _ _
    | succ left =>
      have h := reserve_schedule w t (.after delay) name
        (link t tag delay left name) counts
      have hlength : (Timing.after delay).calls + left = left + 1 := Nat.add_comm 1 left
      rwa [timedCalls_link, hlength] at h
  | stopAfter t delay name => exact reserve_stopAfter w t delay name counts
  | _ => exact hlight (fun a h => h.elim) fun t delay name h => by cases h

end World

end EventSim
